import ValueSchema.Proofs.Calls
import ValueSchema.Proofs.Parity

/-!
# Counts of several steps

How many functions of the user's a node calls depends on which visits its plan makes.
`Plan.made` lists them.  It is the place where the modes differ: an immediate call ends a descent,
a union or an intersection at the step that decides it, and a deferred call makes all visits of
them.

Each way of running several steps has one lemma here, and it is the same for both modes: parts
(`Parser.descend_adds`), the members of a union (`Schema.tryMembers_adds`) and of an intersection
(`Schema.runMembers_adds`), and checks (`Schema.runEntries_adds`).  What a container does after
its descent depends on what was refused, and `Parser.Tallies` keeps the count together with that.
-/

namespace ValueSchema

open ValueSchema.Parser

/-! ## The visits that a plan makes -/

namespace Plan

/-- The steps that are run of several that all have to succeed. -/
def runIn (mode : Mode) (stops : Bool) (visit : Visit → Outcome) (ts : List Visit) : List Visit :=
  match mode with
  | .immediate => reachedIn stops visit ts
  | .deferred => ts

/-- The steps that are run of several of which one has to succeed. -/
def attemptedIn (mode : Mode) (visit : Visit → Outcome) (ts : List Visit) : List Visit :=
  match mode with
  | .immediate => triedIn visit ts
  | .deferred => ts

/-- The visits that a container makes after it raised issues of its own. -/
def descendedIn (mode : Mode) (own : List Issue) (stops : Bool) (visit : Visit → Outcome)
    (ts : List Visit) : List Visit :=
  if stops && !own.isEmpty then [] else runIn mode stops visit ts

/-- The visits that a plan makes. -/
def made (mode : Mode) (visit : Visit → Outcome) : Plan → List Visit
  | .done _ => []
  | .andThen t next =>
      t :: (match visit t with
        | .ok (.success w) => (next w).made mode visit
        | _ => [])
  | .parts own stops ts _ => descendedIn mode own stops visit ts
  | .union ts _ => attemptedIn mode visit ts
  | .intersection stops ts _ => runIn mode stops visit ts

theorem descendedIn_of_descends {mode : Mode} {own : List Issue} {stops : Bool}
    {visit : Visit → Outcome} {ts : List Visit} (h : own ≠ [] → stops = false) :
    descendedIn mode own stops visit ts = runIn mode stops visit ts := by
  refine if_neg ?_
  cases own <;> simp_all

theorem descendedIn_of_own {mode : Mode} {own : List Issue} {visit : Visit → Outcome}
    {ts : List Visit} (h : own ≠ []) : descendedIn mode own true visit ts = [] :=
  if_pos (by simpa using h)

theorem reachedIn_cons (stops : Bool) (visit : Visit → Outcome) (t : Visit) (ts : List Visit) :
    reachedIn stops visit (t :: ts) = t :: match visit t with
      | .error _ => []
      | .ok (.success _) => reachedIn stops visit ts
      | .ok (.failure _) => if stops then [] else reachedIn stops visit ts := by
  rw [reachedIn]
  cases visit t with
  | error e => rfl
  | ok o => cases o <;> cases stops <;> rfl

theorem triedIn_cons (visit : Visit → Outcome) (t : Visit) (ts : List Visit) :
    triedIn visit (t :: ts) = t :: match visit t with
      | .ok (.failure _) => triedIn visit ts
      | _ => [] := by
  rw [triedIn]
  cases visit t with
  | error e => rfl
  | ok o => cases o <;> rfl

/-- Steps without a misuse are all reached when nothing stops early. -/
theorem reachedIn_eq_self {visit : Visit → Outcome} :
    ∀ {ts : List Visit}, (∀ t ∈ reachedIn false visit ts, ¬ IsMisuse (visit t)) →
      reachedIn false visit ts = ts
  | [], _ => rfl
  | t :: ts, h => by
      have ht := h t (mem_reachedIn_head false visit t ts)
      rw [reachedIn] at h ⊢
      cases hv : visit t with
      | error e => exact absurd ⟨e, hv⟩ ht
      | ok o =>
          rw [hv] at h
          have hrest (hall : ∀ u ∈ t :: reachedIn false visit ts, ¬ IsMisuse (visit u)) :
              reachedIn false visit ts = ts :=
            reachedIn_eq_self fun u hu => hall u (List.mem_cons_of_mem _ hu)
          cases o with
          | success w => exact congrArg (t :: ·) (hrest h)
          | failure is => exact congrArg (t :: ·) (hrest h)

theorem runIn_false {mode : Mode} {visit : Visit → Outcome} {ts : List Visit}
    (h : ∀ t ∈ ts, ∃ o, visit t = .ok o) : runIn mode false visit ts = ts := by
  cases mode with
  | deferred => rfl
  | immediate =>
      refine reachedIn_eq_self fun t ht hmisuse => ?_
      obtain ⟨o, ho⟩ := h t ((reachedIn_isPrefix false visit ts).subset ht)
      exact IsMisuse.not_ok o (ho ▸ hmisuse)

/-- A plan that leaves everything to one visit makes that one. -/
theorem made_pass (mode : Mode) (visit : Visit → Outcome) (t : Visit) :
    (pass t).made mode visit = [t] := by
  rw [pass, made]
  cases visit t with
  | error e => rfl
  | ok o => cases o <;> rfl

end Plan

/-- How many functions of the user's several visits call. -/
def visitCalls (call : Call) (ts : List Visit) : Nat := (ts.map (Visit.calls call)).sum

theorem visitCalls_cons (call : Call) (t : Visit) (ts : List Visit) :
    visitCalls call (t :: ts) = t.calls call + visitCalls call ts :=
  rfl

/-- A visit that is isolated reports its outcome and adds its calls. -/
theorem Visit.isolated_reports (call : Call) (t : Visit) (p : Progress) :
    ∃ r, isolated t.path (t.schema.runWithin call t.hops t.value) p =
        (.ok r, { p with calls := p.calls + t.calls call }) ∧
      Parser.Reports r (t.outcome call) := by
  obtain ⟨r, calls, hr, hreports⟩ :=
    Parser.isolated_reports (t.schema.runWithin_answers call t.hops t.path t.value) p
  have hsame := hr.symm.trans (t.isolated_run p)
  simp only [Prod.mk.injEq, Except.ok.injEq] at hsame
  obtain ⟨rfl, -⟩ := hsame
  exact ⟨_, t.isolated_run p, hreports⟩

/-! ## Several visits -/

namespace Parser

variable {α β : Type}

/-- A step adds `n` calls to those before. -/
def Adds (x : Parser α) (p : Progress) (n : Nat) : Prop := (x p).2.calls = p.calls + n

section Adds

variable {x : Parser α} {f : α → Parser β} {p q : Progress} {a : α} {m n : Nat}

theorem Adds.bind (hx : x p = (.ok a, q)) (hm : q.calls = p.calls + m) (hf : (f a).Adds q n) :
    (x >>= f).Adds p (m + n) := by
  show ((x >>= f) p).2.calls = p.calls + (m + n)
  rw [bind_eq hx, ← Nat.add_assoc, ← hm]
  exact hf

/-- What comes after a silent step. -/
theorem Adds.after (hx : x p = (.ok a, q)) (hq : q.calls = p.calls) (hf : (f a).Adds q n) :
    (x >>= f).Adds p n := by
  show ((x >>= f) p).2.calls = p.calls + n
  rw [bind_eq hx, ← hq]
  exact hf

/-- Nothing comes after a misuse. -/
theorem Adds.of_error {e : Misuse} (hx : x.Adds p n) (he : (x p).1 = .error e) :
    (x >>= f).Adds p n := by
  revert hx he
  simp only [Adds, Bind.bind]
  rcases x p with ⟨e' | a, q⟩ <;> intro hx he
  · exact hx
  · cases he

theorem Adds.map {f : α → β} (hx : x.Adds p n) : (x >>= fun a => pure (f a)).Adds p n :=
  (bind_pure_calls x f p).trans hx

theorem Adds.bind_silent (hx : x.Adds p n) (hf : ∀ a, (f a).Silent) : (x >>= f).Adds p n := by
  revert hx
  simp only [Adds, Bind.bind]
  rcases x p with ⟨e | a, q⟩ <;> intro hx
  · exact hx
  · exact (hf a q).trans hx

theorem Silent.adds (hx : x.Silent) (p : Progress) : x.Adds p 0 := hx p

end Adds

variable {call : Call} {hops : Nat} {here : Path}

/-- Visits that run together are all made. -/
theorem runAll_visits : ∀ (ts : List Visit) (p : Progress),
    runAll (ts.map fun t => (t.path, t.schema.runWithin call t.hops t.value)) p =
      (.ok (ts.map fun t => ((t.run call).1, (t.run call).2.report)),
        { p with calls := p.calls + visitCalls call ts })
  | [], _ => rfl
  | t :: ts, p => by
      have hsum : p.calls + visitCalls call (t :: ts) =
          p.calls + t.calls call + visitCalls call ts := (Nat.add_assoc ..).symm
      rw [List.map_cons, runAll, bind_eq (t.isolated_run p), bind_eq (runAll_visits ts _), hsum]
      rfl

theorem path_of {p : Progress} (hp : p.report.path = here) : Parser.path p = (.ok here, p) := by
  rw [← hp]
  rfl

/-- A visit is made in isolation, and then comes what its outcome leads to. -/
theorem Adds.isolated {F : Except Misuse (Option Value) × Report → Parser β} {p : Progress}
    {n : Nat} (t : Visit)
    (herror : ∀ e report q, t.outcome call = .error e → (F (.error e, report)).Adds q n)
    (hok : ∀ o report path q, t.outcome call = .ok o → report.Lists path o.issues →
      q.report.path = p.report.path → (F (.ok o.output?, report)).Adds q n) :
    (Parser.isolated t.path (t.schema.runWithin call t.hops t.value) >>= F).Adds p
      (t.calls call + n) := by
  obtain ⟨⟨result, report⟩, hr, hreports⟩ := t.isolated_reports call p
  cases ho : t.outcome call with
  | error e =>
      rw [ho] at hreports
      obtain rfl : result = .error e := hreports
      exact .bind hr rfl (herror e report _ ho)
  | ok o =>
      rw [ho] at hreports
      obtain ⟨hresult, path, hl⟩ := hreports
      obtain rfl : result = .ok o.output? := hresult
      exact .bind hr rfl (hok o report path _ ho hl rfl)

theorem descendInTurn_adds (stops : Bool) :
    ∀ (parts : List Part) {p : Progress}, p.report.path = here →
      (descendInTurn stops (parts.map (Part.descent (Schema.runWithin call hops)))).Adds p
        (visitCalls call
          (Plan.reachedIn stops (Visit.outcome call) (parts.map (Part.visit hops here))))
  | [], _, _ => rfl
  | t :: parts, p, hp => by
      rw [List.map_cons, List.map_cons, descendInTurn, Plan.reachedIn_cons, visitCalls_cons]
      refine .after (path_of hp) rfl (.isolated (t.visit hops here) ?_ ?_)
      · intro e report q ho
        rw [ho]
        rfl
      · intro o report path q ho hl hq
        rw [ho]
        refine .after (x := attach report) rfl rfl (.after (ofExcept_ok _ _) rfl ?_)
        rw [accepted_eq hl]
        have hrest := descendInTurn_adds stops parts
          (p := { q with report := q.report.attach report }) (hq.trans hp)
        cases o with
        | success w => exact hrest.map
        | failure is =>
            cases stops with
            | true => rfl
            | false => exact hrest.map

/-- Descending into parts makes the visits of those that are run. -/
theorem descend_adds (call : Call) (hops : Nat) (stops : Bool) (parts : List Part) {p : Progress}
    (hp : p.report.path = here) :
    (descend call stops (parts.map (Part.descent (Schema.runWithin call hops)))).Adds p
      (visitCalls call (Plan.runIn call.mode stops (Visit.outcome call)
        (parts.map (Part.visit hops here)))) := by
  unfold descend Plan.runIn
  cases call.mode with
  | immediate => exact descendInTurn_adds stops parts hp
  | deferred =>
      have hvisits : ((parts.map (Part.descent (Schema.runWithin call hops))).map fun d =>
          (here.push d.segment, d.step)) = (parts.map (Part.visit hops here)).map fun t =>
            (t.path, t.schema.runWithin call t.hops t.value) := by
        rw [List.map_map, List.map_map]
        rfl
      refine .after (path_of hp) rfl ?_
      rw [hvisits]
      exact .bind (runAll_visits _ p) rfl ((settle_silent stops false _).adds _)

end Parser

/-! ## Members -/

namespace Schema

variable {call : Call} {hops : Nat} {here : Path} {v : Value}

theorem firstAccepted_silent :
    ∀ (reports : List Report) (rs : List (Except Misuse (Option Value) × Report)),
      (firstAccepted reports rs).Silent
  | _, [] => silent_pure _
  | reports, (result, report) :: rs => by
      rw [firstAccepted]
      refine silent_bind (silent_ofExcept _) fun out => ?_
      split
      · exact silent_pure _
      · exact firstAccepted_silent _ rs

theorem gather_silent (stops : Bool) :
    ∀ (failed : Bool) (rs : List (Except Misuse (Option Value) × Report)),
      (gather stops failed rs).Silent
  | _, [] => silent_pure _
  | failed, (result, report) :: rs => by
      rw [gather]
      refine silent_bind (silent_ofExcept _) fun out => ?_
      split
      · exact silent_bind (fun _ => rfl) fun _ => gather_silent stops _ rs
      · refine silent_bind (fun _ => rfl) fun _ => ?_
        split
        · exact silent_bind (gather_silent stops _ rs) fun _ => silent_pure _
        · exact gather_silent stops _ rs

theorem tryInTurn_adds :
    ∀ (ss : List Schema) (reports : List Report) (p : Progress),
      (tryInTurn here v reports (ss.map (runWithin call hops))).Adds p
        (visitCalls call (Plan.triedIn (Visit.outcome call)
          (ss.map fun s => ⟨hops, s, here, v⟩)))
  | [], _, _ => rfl
  | s :: ss, reports, p => by
      rw [List.map_cons, List.map_cons, tryInTurn, Plan.triedIn_cons, visitCalls_cons]
      refine .isolated ⟨hops, s, here, v⟩ ?_ ?_
      · intro e report q ho
        rw [ho]
        rfl
      · intro o report path q ho hl _
        rw [ho]
        refine .after (ofExcept_ok _ _) rfl ?_
        rw [accepted_eq hl]
        cases o with
        | success w => rfl
        | failure is => exact tryInTurn_adds ss _ _

theorem runInTurn_adds (stops : Bool) :
    ∀ (ss : List Schema) (p : Progress),
      (runInTurn stops here v (ss.map (runWithin call hops))).Adds p
        (visitCalls call (Plan.reachedIn stops (Visit.outcome call)
          (ss.map fun s => ⟨hops, s, here, v⟩)))
  | [], _ => rfl
  | s :: ss, p => by
      rw [List.map_cons, List.map_cons, runInTurn, Plan.reachedIn_cons, visitCalls_cons]
      refine .isolated ⟨hops, s, here, v⟩ ?_ ?_
      · intro e report q ho
        rw [ho]
        rfl
      · intro o report path q ho hl _
        rw [ho]
        refine .after (x := attach report) rfl rfl (.after (ofExcept_ok _ _) rfl ?_)
        rw [accepted_eq hl]
        have hrest := runInTurn_adds stops ss { q with report := q.report.attach report }
        cases o with
        | success w => exact hrest.map
        | failure is =>
            cases stops with
            | true => rfl
            | false => exact hrest

/-- Members that run together are all visited. -/
theorem runAll_members (call : Call) (hops : Nat) (here : Path) (v : Value) (ss : List Schema)
    (p : Progress) :
    ∃ rs, runAll ((ss.map (runWithin call hops)).map fun m => (here, m v)) p =
      (.ok rs,
        { p with calls := p.calls + visitCalls call (ss.map fun s => ⟨hops, s, here, v⟩) }) := by
  have hvisits : ((ss.map (runWithin call hops)).map fun m => (here, m v)) =
      (ss.map fun s => (⟨hops, s, here, v⟩ : Visit)).map fun t =>
        (t.path, t.schema.runWithin call t.hops t.value) := by
    rw [List.map_map, List.map_map]
    rfl
  rw [hvisits]
  exact ⟨_, runAll_visits _ p⟩

/-- Trying members makes the visits of those that are run. -/
theorem tryMembers_adds (ss : List Schema) {p : Progress} (hp : p.report.path = here) :
    (tryMembers call (ss.map (runWithin call hops)) v).Adds p
      (visitCalls call (Plan.attemptedIn call.mode (Visit.outcome call)
        (ss.map fun s => ⟨hops, s, here, v⟩))) := by
  unfold tryMembers Plan.attemptedIn
  refine .after (path_of hp) rfl ?_
  cases call.mode with
  | immediate => exact tryInTurn_adds ss [] p
  | deferred =>
      obtain ⟨rs, hrs⟩ := runAll_members call hops here v ss p
      exact .bind hrs rfl ((firstAccepted_silent [] rs).adds _)

/-- The members of an intersection are visited if they are run. -/
theorem runMembers_adds (stops : Bool) (ss : List Schema) {p : Progress}
    (hp : p.report.path = here) :
    (runMembers call stops (ss.map (runWithin call hops)) v).Adds p
      (visitCalls call (Plan.runIn call.mode stops (Visit.outcome call)
        (ss.map fun s => ⟨hops, s, here, v⟩))) := by
  unfold runMembers Plan.runIn
  refine .after (path_of hp) rfl ?_
  cases call.mode with
  | immediate => exact runInTurn_adds stops ss p
  | deferred =>
      obtain ⟨rs, hrs⟩ := runAll_members call hops here v ss p
      exact .bind (n := 0) hrs rfl ((gather_silent stops false rs).adds _).map

/-! ## Checks -/

/-- How many named checks are applied. -/
def namedChecks (stops : Bool) : List CheckEntry → Value → Nat
  | [], _ => 0
  | e :: es, v =>
      (if e.kind = .custom then 1 else 0) +
        match e.check.evaluate v with
        | .pass => namedChecks stops es v
        | .rewrite w => namedChecks stops es w
        | .fail _ => if stops then 0 else namedChecks stops es v
termination_by structural es => es

variable (node : Schema) (call : Call)

/-- How many functions of the user's the selected checks of a node call. -/
def checkCalls (select : CheckKind → Bool) (v : Value) : Nat :=
  namedChecks (node.stops call) (node.checks.entries.filter fun e => select e.kind) v

theorem runEntries_adds (stops : Bool) :
    ∀ (es : List CheckEntry) (v : Value) (p : Progress),
      (node.runEntries call stops es v).Adds p (namedChecks stops es v)
  | [], _, _ => rfl
  | e :: es, v, p => by
      have hcounted {x : Parser (Bool × Value)} {n : Nat} (hx : ∀ q, x.Adds q n) :
          (if e.kind = .custom then countCall >>= fun _ => x else x).Adds p
            ((if e.kind = .custom then 1 else 0) + n) := by
        by_cases he : e.kind = .custom
        · rw [if_pos he, if_pos he]
          exact .bind (x := countCall) rfl rfl (hx _)
        · rw [if_neg he, if_neg he, Nat.zero_add]
          exact hx p
      rw [runEntries, namedChecks]
      cases e.check.evaluate v with
      | pass => exact hcounted (runEntries_adds stops es v)
      | rewrite w => exact hcounted (runEntries_adds stops es w)
      | fail received =>
          refine hcounted fun q => .after (x := raise _ _ _ _) rfl rfl ?_
          cases stops with
          | true => rfl
          | false => exact (runEntries_adds false es v _).map

theorem finishChecks_adds (select : CheckKind → Bool) (v : Value) (p : Progress) :
    (node.finishChecks call select v).Adds p (node.checkCalls call select v) :=
  Adds.map (node.runEntries_adds call _ _ v p)

/-- Checks that do not stop early are all applied. -/
theorem namedChecks_false :
    ∀ (es : List CheckEntry) (v : Value), namedChecks false es v = es.countP (·.kind = .custom)
  | [], _ => rfl
  | e :: es, v => by
      have hrest : (match e.check.evaluate v with
          | .pass => namedChecks false es v
          | .rewrite w => namedChecks false es w
          | .fail _ => if false then 0 else namedChecks false es v) =
            es.countP (·.kind = .custom) := by
        split
        · exact namedChecks_false es v
        · exact namedChecks_false es _
        · exact namedChecks_false es v
      rw [namedChecks, hrest, List.countP_cons, Nat.add_comm]
      simp only [decide_eq_true_eq]

/-- Without a named check nothing is called. -/
theorem namedChecks_eq_zero {stops : Bool} :
    ∀ {es : List CheckEntry} {v : Value}, (∀ e ∈ es, e.kind ≠ .custom) →
      namedChecks stops es v = 0
  | [], _, _ => rfl
  | e :: es, v, h => by
      obtain ⟨he, hes⟩ := List.forall_mem_cons.mp h
      rw [namedChecks, if_neg he, Nat.zero_add]
      split
      · exact namedChecks_eq_zero hes
      · exact namedChecks_eq_zero hes
      · split
        · rfl
        · exact namedChecks_eq_zero hes

/-- The size of a container is no named check. -/
theorem checkCalls_isSize (v : Value) : node.checkCalls call CheckKind.isSize v = 0 := by
  refine namedChecks_eq_zero fun e he hcustom => ?_
  have hsize := (List.mem_filter.mp he).2
  rw [hcustom] at hsize
  cases hsize

end Schema

/-! ## Around a descent -/

/-- What is called after steps that all succeed. -/
def Outcome.afterAll (r : Except Misuse (List Issue × List Value)) (n : List Value → Nat) : Nat :=
  match r with
  | .ok ([], ws) => n ws
  | _ => 0

/-- What is called after a step that succeeds. -/
def Outcome.afterSuccess (o : Outcome) (n : Nat) : Nat :=
  match o with
  | .ok (.success _) => n
  | _ => 0

theorem Outcome.afterSuccess_zero (o : Outcome) : o.afterSuccess 0 = 0 := by
  unfold afterSuccess
  split <;> rfl

namespace Parser

variable {β : Type} {call : Call} {hops : Nat} {path : Path}

/-- A step adds `n` calls, and then goes on when nothing was refused. -/
def Tallies (x : Parser β) (stop : β) (k : List (Option Value) → Parser β) (p : Progress)
    (path : Path) (n : Nat) : Except Misuse (List Issue × List Value) → Prop
  | .error e => (x p).1 = .error e ∧ x.Adds p n
  | .ok (is, ws) => ∃ q : Progress, q.report.Lists path is ∧ q.calls = p.calls + n ∧
      (is = [] → x p = k (ws.map some) q) ∧ (is ≠ [] → x p = (.ok stop, q))

section Tallies

variable {x y : Parser β} {stop : β} {k : List (Option Value) → Parser β} {p q : Progress}
  {n : Nat} {r : Except Misuse (List Issue × List Value)}

theorem Tallies.of_eq (h : x p = y q) (hcalls : q.calls = p.calls)
    (hy : y.Tallies stop k q path n r) : x.Tallies stop k p path n r := by
  cases r with
  | error e =>
      obtain ⟨he, hn⟩ := hy
      refine ⟨(congrArg Prod.fst h).trans he, ?_⟩
      show (x p).2.calls = p.calls + n
      rw [h, ← hcalls]
      exact hn
  | ok r =>
      obtain ⟨q', hl, hn, hgo, hstop⟩ := hy
      exact ⟨q', hl, hcalls ▸ hn, fun he => h.trans (hgo he), fun he => h.trans (hstop he)⟩

/-- A step may be followed by another one that does nothing after a refusal. -/
theorem Tallies.bind {γ : Type} {g : β → Parser γ} {stop' : γ} (h : x.Tallies stop k p path n r)
    (hg : g stop = pure stop') :
    (x >>= g).Tallies stop' (fun outs => k outs >>= g) p path n r := by
  cases r with
  | error e => exact ⟨bind_error h.1, .of_error h.2 h.1⟩
  | ok r =>
      obtain ⟨q, hl, hn, hgo, hstop⟩ := h
      refine ⟨q, hl, hn, fun he => ?_, fun he => ?_⟩
      · simp only [Bind.bind, hgo he]
      · rw [bind_eq (hstop he), hg]
        rfl

/-- What comes after the steps adds its calls. -/
theorem Tallies.adds (h : x.Tallies stop k p path n r) {m : List Value → Nat}
    (hk : ∀ (ws : List Value) (q : Progress), (k (ws.map some)).Adds q (m ws)) :
    x.Adds p (Outcome.afterAll r m + n) := by
  match r, h with
  | .error _, ⟨_, hn⟩ => exact hn.trans (congrArg (p.calls + ·) (Nat.zero_add n).symm)
  | .ok ([], ws), ⟨q, _, hn, hgo, _⟩ =>
      have hk : (k (ws.map some) q).2.calls = q.calls + m ws := hk ws q
      show (x p).2.calls = p.calls + (m ws + n)
      rw [hgo rfl, hk, hn]
      omega
  | .ok (i :: is, ws), ⟨q, _, hn, _, hstop⟩ =>
      show (x p).2.calls = p.calls + (0 + n)
      rw [hstop (List.cons_ne_nil i is), Nat.zero_add]
      exact hn

/-- Own issues stop a node that stops early. -/
theorem Tallies.of_own (stop : β) (k : List (Option Value) → Parser β) {own : List Issue}
    {p : Progress} (hp : p.report.Records path own []) (hown : own ≠ []) (ts : List Visit)
    (os : List Outcome) :
    (pure stop : Parser β).Tallies stop k p path
      (visitCalls call (Plan.descendedIn call.mode own true (Visit.outcome call) ts))
      (Outcome.gather true (Outcome.raised own ++ os)) := by
  rw [Outcome.gather_raised_stops hown, Plan.descendedIn_of_own hown]
  exact ⟨p, by simpa using hp.lists, rfl, fun he => absurd he hown, fun _ => rfl⟩

end Tallies

/-- A container descends, with issues of its own that do not stop it. -/
theorem descend_tallies {stops : Bool} {parts : List Part} {own : List Issue} {p : Progress}
    (stop : β) (k : List (Option Value) → Parser β) (hp : p.report.Records path own [])
    (hown : own ≠ [] → stops = false) :
    (do
      let outs ← descend call stops (parts.map (Part.descent (Schema.runWithin call hops)))
      if ← isInvalid then return stop else k outs).Tallies stop k p path
        (visitCalls call (Plan.descendedIn call.mode own stops (Visit.outcome call)
          (parts.map (Part.visit hops path))))
        (Outcome.gather stops (Outcome.raised own ++
          (parts.map (Part.visit hops path)).map (Visit.outcome call))) := by
  have hadds : Adds _ p _ :=
    descend_adds call hops stops parts hp.path_eq
  have hanswers : AnswersFor (Schema.runWithin call hops) hops (Visit.outcome call)
      (parts.map Part.schema) := fun s _ path v => Schema.runWithin_answers call hops s path v
  have hcollects := descend_collects call stops
    (hanswers.descents path fun t ht => List.mem_map_of_mem ht) hp
  rw [Plan.descendedIn_of_descends hown, Outcome.gather_raised hown]
  revert hcollects
  cases Outcome.gather stops ((parts.map (Part.visit hops path)).map (Visit.outcome call)) with
  | error e => exact fun he => ⟨bind_error he, .of_error hadds he⟩
  | ok r =>
      rintro ⟨outs, ⟨q, hq, hr⟩, hres⟩
      rw [Adds, hq] at hadds
      rw [List.nil_append] at hr
      have hinvalid : isInvalid q = (.ok (!(own ++ r.1).isEmpty), q) := by
        rw [← hr.isInvalid_eq]
        rfl
      refine ⟨q, hr.lists, hadds, fun he => ?_, fun he => ?_⟩
      · rw [bind_eq hq, bind_eq hinvalid, he, if_neg (by decide),
          hres (List.append_eq_nil_iff.mp he).2]
      · rw [bind_eq hq, bind_eq hinvalid, if_pos (by simpa using he)]
        rfl

end Parser

end ValueSchema

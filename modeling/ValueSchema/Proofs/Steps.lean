import Mathlib.Data.List.Forall2
import ValueSchema.Proofs.Outcome

/-!
# Outcomes of the steps inside a node

A node runs checks at its own place, descends into parts, and tries members.  Each of
these steps has one lemma here that says what it amounts to in terms of the outcomes of
the steps it runs.

The two modes differ in the order of their work and in what they keep of it, but both
ways of descending amount to `Outcome.gather` (`descend_collects`) and both ways of
trying members to `Outcome.choose` (`tryMembers_chooses`).  Only an intersection tells
the modes apart: a deferred one counts every misuse, `Outcome.gatherAll`, and an
immediate one only those up to the member it stops at (`runMembers_collects`).
-/

namespace ValueSchema

/-! ## Checks -/

open ValueSchema.Parser

namespace Schema

/-- The issues that checks raise at a place, and the value they leave. -/
def checkedBy (node : Schema) (call : Call) (path : Path) (stops : Bool) :
    List CheckEntry → Value → List Issue × Value
  | [], v => ([], v)
  | e :: es, v =>
      match e.check.evaluate v with
      | .pass => checkedBy node call path stops es v
      | .rewrite w => checkedBy node call path stops es w
      | .fail received =>
          let i := call.issue (node.kind.checkCause ⟨e.kind, e.check.expected, received⟩) path
            e.message v
          if stops then ([i], v)
          else
            let r := checkedBy node call path stops es v
            (i :: r.1, r.2)
termination_by structural es => es

/-- The issues that the selected checks of a node raise, and the value they leave. -/
def checked (node : Schema) (call : Call) (path : Path) (select : CheckKind → Bool) (v : Value) :
    List Issue × Value :=
  node.checkedBy call path (call.abortsEarly node.settings.abortEarly)
    (node.checks.entries.filter fun e => select e.kind) v

/-- The validation by the selected checks of a node, whose output is converted. -/
def finished (node : Schema) (call : Call) (path : Path) (select : CheckKind → Bool)
    (convert : Value → Value) (v : Value) : Validation :=
  let r := node.checked call path select v
  .after r.1 (.success (convert r.2))

theorem runEntries_ends (node : Schema) (call : Call) (stops : Bool) {path : Path} :
    ∀ (es : List CheckEntry) (v : Value) {p : Progress} {own : List Issue},
      p.report.Records path own [] →
      (node.runEntries call stops es v).Ends p
        ((node.checkedBy call path stops es v).1.isEmpty, (node.checkedBy call path stops es v).2)
        path (own ++ (node.checkedBy call path stops es v).1) [] := by
  intro es
  induction es with
  | nil =>
      intro v p own hp
      rw [checkedBy, List.append_nil]
      exact ⟨p, rfl, hp⟩
  | cons e es ih =>
      intro v p own hp
      have hrest : ∀ q : Progress, q.report.Records path own [] →
          (match e.check.evaluate v with
            | .pass => runEntries node call stops es v
            | .rewrite w => runEntries node call stops es w
            | .fail received => do
                raise call (node.kind.checkCause ⟨e.kind, e.check.expected, received⟩) e.message v
                if stops then return (false, v)
                else return (false, (← runEntries node call stops es v).2)).Ends q
            ((node.checkedBy call path stops (e :: es) v).1.isEmpty,
              (node.checkedBy call path stops (e :: es) v).2)
            path (own ++ (node.checkedBy call path stops (e :: es) v).1) [] := by
        intro q hq
        rw [checkedBy]
        cases e.check.evaluate v with
        | pass => exact ih v hq
        | rewrite w => exact ih w hq
        | fail received =>
            refine (raise_ends hq _ _ _ _).bind fun q hq => ?_
            cases stops with
            | true => exact .of_pure _ hq
            | false =>
                refine (ih v hq).bind fun q hq => .of_pure _ ?_
                rwa [List.append_assoc] at hq
      rw [runEntries]
      by_cases he : e.kind = .custom
      · rw [if_pos he]
        exact (countCall_ends hp).bind hrest
      · rw [if_neg he]
        exact hrest p hp

/-- The checks of a node on a place with issues of its own only. -/
theorem runChecks_ends (node : Schema) (call : Call) (select : CheckKind → Bool) (v : Value)
    {path : Path} {p : Progress} {own : List Issue} (hp : p.report.Records path own []) :
    (node.runChecks call select v).Ends p
      ((node.checked call path select v).1.isEmpty, (node.checked call path select v).2)
      path (own ++ (node.checked call path select v).1) [] :=
  runEntries_ends node call _ _ v hp

end Schema

/-! ## Steps on reports of their own -/

namespace Parser

/-- The result and the report of a step that ran on a report of its own are those of an
outcome. -/
def Reports (r : Except Misuse (Option Value) × Report) : Outcome → Prop
  | .error e => r.1 = .error e
  | .ok o => r.1 = .ok o.output? ∧ ∃ path, r.2.Lists path o.issues

theorem isolated_reports {x : Parser (Option Value)} {path : Path} {o : Outcome}
    (hx : x.Answers path o) (p : Progress) :
    ∃ r calls, isolated path x p = (.ok r, { p with calls := calls }) ∧ Reports r o := by
  have hy := hx { report := { path := path }, calls := p.calls }
    (Report.clean_empty path).records
  refine ⟨_, _, rfl, ?_⟩
  cases o with
  | error e => exact hy
  | ok o =>
      obtain ⟨q, hq, hl⟩ := hy
      rw [hq]
      exact ⟨rfl, path, hl⟩

/-- The output of an outcome is accepted with its report. -/
theorem accepted_eq {o : Validation} {report : Report} {path : Path}
    (h : report.Lists path o.issues) : accepted o.output? report = o.output? := by
  rw [accepted, h.isInvalid_eq]
  cases o <;> rfl

theorem attach_ends {p : Progress} {path at' : Path} {own below is : List Issue} {report : Report}
    (hp : p.report.Records path own below) (h : report.Lists at' is) :
    (attach report).Ends p () path own (below ++ is) :=
  ⟨_, rfl, hp.attach h⟩

theorem discard_ends {p : Progress} {path : Path} {own below : List Issue}
    (hp : p.report.Records path own below) (hb : below ≠ []) (report : Report) :
    (discard report).Ends p () path own below :=
  ⟨_, rfl, hp.noteMark hb report⟩

/-- A step that has to collect the outputs of several others: without an issue its result
is made from all of them. -/
def Collects {β : Type} (x : Parser β) (result : List Value → β) (p : Progress) (path : Path)
    (own below : List Issue) : Except Misuse (List Issue × List Value) → Prop
  | .error e => (x p).1 = .error e
  | .ok (is, ws) => ∃ b, x.Ends p b path own (below ++ is) ∧ (is = [] → b = result ws)

namespace Collects

variable {β γ : Type} {result : List Value → β} {p q : Progress} {path : Path}
  {own below : List Issue}

theorem of_eq {x y : Parser β} {c : Except Misuse (List Issue × List Value)} (h : x p = y q)
    (hy : y.Collects result q path own below c) : x.Collects result p path own below c := by
  cases c with
  | error e => exact (congrArg Prod.fst h).trans hy
  | ok r =>
      obtain ⟨b, ⟨p', hp', hr⟩, hb⟩ := hy
      exact ⟨b, ⟨p', h.trans hp', hr⟩, hb⟩

/-- What comes before a step that collects adds its issues in front and completes the
result. -/
theorem extend {x : Parser β} {f : β → γ} {result' : List Value → γ}
    {c : Except Misuse (List Issue × List Value)} {is : List Issue}
    {g : List Value → List Value} (hx : x.Collects result p path own (below ++ is) c)
    (hf : is = [] → ∀ ws, f (result ws) = result' (g ws)) :
    (x >>= fun b => pure (f b)).Collects result' p path own below
      (c.map fun r => (is ++ r.1, g r.2)) := by
  cases c with
  | error e => exact bind_error hx
  | ok r =>
      obtain ⟨b, hb, hres⟩ := hx
      refine ⟨f b, hb.bind fun q hq => .of_pure _ ?_, fun he => ?_⟩
      · rwa [List.append_assoc] at hq
      · obtain ⟨hi, hr⟩ := List.append_eq_nil_iff.mp he
        rw [hres hr, hf hi]

/-- The result of a step that collects can be passed on. -/
theorem wrap {x : Parser β} {f : β → γ} {result' : List Value → γ}
    {c : Except Misuse (List Issue × List Value)} (hx : x.Collects result p path own below c)
    (hf : ∀ ws, f (result ws) = result' ws) :
    (x >>= fun b => pure (f b)).Collects result' p path own below c := by
  cases c with
  | error e => exact bind_error hx
  | ok r =>
      obtain ⟨b, hb, hres⟩ := hx
      exact ⟨f b, hb.bind fun q hq => .of_pure _ hq, fun h => by rw [hres h, hf]⟩

/-- Issues that come before a step that collects leave no result. -/
theorem prepend {x : Parser β} {c : Except Misuse (List Issue × List Value)} {is : List Issue}
    (hx : x.Collects result p path own (below ++ is) c) (hi : is ≠ []) :
    x.Collects result p path own below (c.map fun r => (is ++ r.1, r.2)) := by
  cases c with
  | error e => exact hx
  | ok r =>
      obtain ⟨b, hb, _⟩ := hx
      exact ⟨b, List.append_assoc .. ▸ hb, fun h => absurd (List.append_eq_nil_iff.mp h).1 hi⟩

/-- A step that stops at some issues. -/
theorem of_pure (b : β) {is : List Issue} {ws : List Value}
    (hp : p.report.Records path own (below ++ is)) (hb : is = [] → b = result ws) :
    (pure b : Parser β).Collects result p path own below (.ok (is, ws)) :=
  ⟨b, .of_pure _ hp, hb⟩

end Collects

/-! ## Descent -/

variable {here : Path} {own : List Issue}

theorem descendInTurn_collects (stops : Bool) {ds : List Descent} {os : List Outcome}
    (h : List.Forall₂ (fun d o => d.step.Answers (here.push d.segment) o) ds os) :
    ∀ {p : Progress} {below : List Issue}, p.report.Records here own below →
      (descendInTurn stops ds).Collects (List.map some) p here own below
        (Outcome.gather stops os) := by
  induction h with
  | nil =>
      intro p below hp
      exact .of_pure [] (by rwa [List.append_nil]) fun _ => rfl
  | @cons d o ds os hd hds ih =>
      intro p below hp
      obtain ⟨⟨result, report⟩, calls, hr, hro⟩ := isolated_reports hd p
      cases o with
      | error e =>
          have hro : result = .error e := hro
          subst hro
          show (descendInTurn stops (d :: ds) p).1 = _
          rw [descendInTurn, bind_eq (path_eq hp), bind_eq hr]
          rfl
      | ok o =>
          obtain ⟨hro, at', hl⟩ := hro
          have hro : result = .ok o.output? := hro
          subst hro
          obtain ⟨q, hqa, hq⟩ := attach_ends (p := { p with calls := calls }) hp hl
          have hstep : descendInTurn stops (d :: ds) p = (o.output?.elim
              (if stops then return [none] else return none :: (← descendInTurn stops ds))
              fun v => do return some v :: (← descendInTurn stops ds) : Parser _) q := by
            rw [descendInTurn, bind_eq (path_eq hp), bind_eq hr]
            show (attach report >>= fun _ => _) _ = _
            rw [bind_eq hqa]
            show (ofExcept (.ok o.output?) >>= fun _ => _) _ = _
            rw [bind_eq (ofExcept_ok o.output? q), accepted_eq hl]
            cases o <;> rfl
          refine .of_eq hstep ?_
          cases o with
          | success w => exact (ih hq).extend (f := (some w :: ·)) (g := (w :: ·)) fun _ _ => rfl
          | failure is =>
              cases stops with
              | true => exact .of_pure [none] hq fun h => nomatch h
              | false => exact (ih hq).extend (f := (none :: ·)) (g := id) fun h => nomatch h

/-- Steps that run on reports of their own leave the report of the place as it is. -/
theorem runAll_reports {xs : List (Path × Parser (Option Value))} {os : List Outcome}
    (h : List.Forall₂ (fun x o => x.2.Answers x.1 o) xs os) :
    ∀ p : Progress, ∃ rs calls, runAll xs p = (.ok rs, { p with calls := calls }) ∧
      List.Forall₂ Reports rs os := by
  induction h with
  | nil => exact fun p => ⟨[], p.calls, rfl, .nil⟩
  | @cons x o xs os hx hxs ih =>
      intro p
      obtain ⟨r, calls, hr, hro⟩ := isolated_reports hx p
      obtain ⟨rs, calls', hrs, hrsos⟩ := ih { p with calls := calls }
      refine ⟨r :: rs, calls', ?_, .cons hro hrsos⟩
      rw [runAll, bind_eq hr, bind_eq hrs]
      rfl

/-- Once a part has failed and the node stops, all further parts are discarded. -/
theorem settle_discards :
    ∀ (rs : List (Except Misuse (Option Value) × Report)) {p : Progress} {below : List Issue},
      p.report.Records here own below → below ≠ [] →
      (settle true true rs).Ends p (rs.map fun _ => none) here own below
  | [], _, _, hp, _ => .of_pure _ hp
  | (_, report) :: rs, _, _, hp, hb =>
      (discard_ends hp hb report).bind fun _ hq =>
        (settle_discards rs hq hb).bind fun _ hq => .of_pure _ hq

theorem settle_collects (stops : Bool) {rs : List (Except Misuse (Option Value) × Report)}
    {os : List Outcome} (h : List.Forall₂ Reports rs os) :
    ∀ {p : Progress} {below : List Issue} (failed : Bool), p.report.Records here own below →
      (failed && stops) = false →
      (settle stops failed rs).Collects (List.map some) p here own below
        (Outcome.gather stops os) := by
  induction h with
  | nil =>
      intro p below failed hp _
      exact .of_pure [] (by rwa [List.append_nil]) fun _ => rfl
  | @cons r o rs os hr hrs ih =>
      intro p below failed hp hf
      obtain ⟨result, report⟩ := r
      cases o with
      | error e =>
          have hr : result = .error e := hr
          subst hr
          show (settle stops failed ((.error e, report) :: rs) p).1 = _
          rw [settle, if_neg (by simp [hf])]
          rfl
      | ok o =>
          obtain ⟨hr, at', hl⟩ := hr
          have hr : result = .ok o.output? := hr
          subst hr
          obtain ⟨q, hqa, hq⟩ := attach_ends hp hl
          have hstep : settle stops failed ((.ok o.output?, report) :: rs) p =
              (do return o.output? :: (← settle stops (failed || o.output?.isNone) rs)
                : Parser _) q := by
            rw [settle, if_neg (by simp [hf]), bind_eq hqa, bind_eq (ofExcept_ok o.output? q)]
            show (settle stops (failed || (accepted o.output? report).isNone) rs >>= fun _ =>
              pure (accepted o.output? report :: _)) q = _
            rw [accepted_eq hl]
          refine .of_eq hstep ?_
          cases o with
          | success w =>
              refine (ih _ hq ?_).extend (f := (some w :: ·)) (g := (w :: ·)) fun _ _ => rfl
              simpa [Validation.output?] using hf
          | failure is =>
              cases stops with
              | true =>
                  -- From here on parts are only discarded, and an issue is listed already.
                  have hb : below ++ is.toList ≠ [] := by simp [Issues.toList]
                  have hfail : (failed || (Validation.failure is).output?.isNone) = true :=
                    Bool.or_true _
                  rw [hfail]
                  exact ⟨_, (settle_discards rs hq hb).bind fun _ hq => .of_pure (none :: _) hq,
                    fun h => nomatch h⟩
              | false =>
                  exact (ih _ hq (Bool.and_false _)).extend (f := (none :: ·)) (g := id)
                    fun h => nomatch h

/-- Both modes of descending into parts gather their outcomes. -/
theorem descend_collects (call : Call) (stops : Bool) {ds : List Descent} {os : List Outcome}
    (h : List.Forall₂ (fun d o => d.step.Answers (here.push d.segment) o) ds os)
    {p : Progress} {below : List Issue} (hp : p.report.Records here own below) :
    (descend call stops ds).Collects (List.map some) p here own below
      (Outcome.gather stops os) := by
  unfold descend
  cases call.mode with
  | immediate => exact descendInTurn_collects stops h hp
  | deferred =>
      have hxs : List.Forall₂ (fun x o => Answers x.2 x.1 o)
          (ds.map fun d => (here.push d.segment, d.step)) os :=
        List.forall₂_map_left_iff.mpr h
      obtain ⟨rs, calls, hrs, hro⟩ := runAll_reports hxs p
      refine .of_eq ?_ (settle_collects stops hro (p := { p with calls := calls })
        false hp rfl)
      show (Parser.path >>= fun _ => _) p = _
      rw [bind_eq (path_eq hp), bind_eq hrs]

end Parser

end ValueSchema

import ValueSchema.Proofs.Report

/-!
# Outcomes of steps

An `Outcome` is what a step of a call amounts to for an observer: a misuse, or a
validation.  `Outcome.gather` is the outcome of several steps that all have to succeed,
and `Outcome.choose` the one of several steps of which one has to.

`Runner.outcome` observes a step on a report of its own.  `Parser.Answers` says that a
step has an outcome wherever it runs: on every report that records nothing yet, the step
ends as the outcome says, and the report lists the issues of the outcome afterwards.  So
nothing that happened before at the same place shows in the outcome.
-/

namespace ValueSchema

/-! ## Validations -/

namespace Validation

/-- The issues of a validation, none if it is a success. -/
def issues : Validation → List Issue
  | .success _ => []
  | .failure is => is.toList

/-- The output of a validation, if it is a success. -/
def output? : Validation → Option Value
  | .success w => some w
  | .failure _ => none

/-- A validation after some issues: a failure with these, or itself if there are none. -/
def after (is : List Issue) (otherwise : Validation) : Validation :=
  match is with
  | [] => otherwise
  | i :: is => .failure ⟨i, is⟩

end Validation

/-- What a step of a call amounts to. -/
abbrev Outcome := Except Misuse Validation

namespace Outcome

/-- The outcome that stands for the issues a node raises itself before it descends. -/
def raised : List Issue → List Outcome
  | [] => []
  | i :: is => [.ok (.failure ⟨i, is⟩)]

/-- What steps that all have to succeed amount to: the first misuse, or else their issues
in order and the outputs of those that succeed.  With `stops` nothing after the first
failure counts. -/
def gather (stops : Bool) : List Outcome → Except Misuse (List Issue × List Value)
  | [] => .ok ([], [])
  | .error e :: _ => .error e
  | .ok (.success w) :: os => (gather stops os).map fun r => (r.1, w :: r.2)
  | .ok (.failure is) :: os =>
      if stops then .ok (is.toList, [])
      else (gather stops os).map fun r => (is.toList ++ r.1, r.2)

/-- The first misuse among outcomes. -/
def misuse? : List Outcome → Option Misuse
  | [] => none
  | .error e :: _ => some e
  | .ok _ :: os => misuse? os

/-- What steps that run together amount to when a misuse of any of them counts, wherever
they stop. -/
def gatherAll (stops : Bool) (os : List Outcome) : Except Misuse (List Issue × List Value) :=
  match misuse? os with
  | some e => .error e
  | none => gather stops os

/-- What the members of an intersection amount to. -/
def gatherMembers (mode : Mode) (stops : Bool) (os : List Outcome) :
    Except Misuse (List Issue × List Value) :=
  match mode with
  | .immediate => gather stops os
  | .deferred => gatherAll stops os

/-- What steps of which one has to succeed amount to: the output of the first that does,
unless a misuse comes before it, or else the issues of all in order. -/
def choose : List Outcome → Except Misuse (Except (List Issue) Value)
  | [] => .ok (.error [])
  | .error e :: _ => .error e
  | .ok (.success w) :: _ => .ok (.ok w)
  | .ok (.failure is) :: os => (choose os).map (·.mapError (is.toList ++ ·))

theorem map_eq_ok_iff {α β : Type} {x : Except Misuse α} {f : α → β} {b : β} :
    x.map f = .ok b ↔ ∃ a, x = .ok a ∧ f a = b := by
  cases x with
  | error e => simp [Except.map]
  | ok a => simp [Except.map]

end Outcome

/-! ## Steps and their outcomes -/

/-- What a step amounts to, on a report of its own. -/
def Runner.outcome (r : Runner) (path : Path) (v : Value) : Outcome :=
  let (result, p) := r v { report := { path := path } }
  result.map p.report.conclude

namespace Parser

variable {α β : Type}

/-- A step ends with a result and leaves a report with these issues. -/
def Ends (x : Parser α) (p : Progress) (a : α) (path : Path) (own below : List Issue) : Prop :=
  ∃ p', x p = (.ok a, p') ∧ p'.report.Records path own below

/-- A step ends as an outcome says, and the report lists the issues of the outcome. -/
def Yields (x : Parser (Option Value)) (p : Progress) (path : Path) : Outcome → Prop
  | .error e => (x p).1 = .error e
  | .ok o => ∃ p', x p = (.ok o.output?, p') ∧ p'.report.Lists path o.issues

/-- A step yields an outcome on every report of a place that records nothing. -/
def Answers (x : Parser (Option Value)) (path : Path) (o : Outcome) : Prop :=
  ∀ p : Progress, p.report.Records path [] [] → x.Yields p path o

/-! ## Sequences of steps -/

theorem bind_eq {x : Parser α} {f : α → Parser β} {p p' : Progress} {a : α}
    (h : x p = (.ok a, p')) : (x >>= f) p = f a p' := by
  simp only [bind, h]

theorem bind_error {x : Parser α} {f : α → Parser β} {p : Progress} {e : Misuse}
    (h : (x p).1 = .error e) : ((x >>= f) p).1 = .error e := by
  simp only [bind]
  cases hx : x p with
  | mk result p' =>
      obtain rfl : result = .error e := by rwa [hx] at h
      rfl

theorem ofExcept_ok (a : α) (p : Progress) : ofExcept (.ok a) p = (.ok a, p) := rfl

theorem Ends.bind {x : Parser α} {f : α → Parser β} {p : Progress} {a : α} {b : β}
    {path path' : Path} {own own' below below' : List Issue} (hx : x.Ends p a path own below)
    (hf : ∀ q : Progress, q.report.Records path own below → (f a).Ends q b path' own' below') :
    (x >>= f).Ends p b path' own' below' := by
  obtain ⟨q, hq, hr⟩ := hx
  obtain ⟨q', hq', hr'⟩ := hf q hr
  exact ⟨q', (bind_eq hq).trans hq', hr'⟩

theorem Ends.of_pure (a : α) {p : Progress} {path : Path} {own below : List Issue}
    (hp : p.report.Records path own below) : (pure a : Parser α).Ends p a path own below :=
  ⟨p, rfl, hp⟩

theorem raise_ends {p : Progress} {path : Path} {own below : List Issue}
    (hp : p.report.Records path own below) (call : Call) (cause : Cause Issue)
    (message : Option String) (data : Value) :
    (raise call cause message data).Ends p () path (own ++ [call.issue cause path message data])
      below := by
  refine ⟨_, rfl, ?_⟩
  show (p.report.raise (call.issue cause p.report.path message data)).Records _ _ _
  rw [hp.path_eq]
  exact hp.raise _

theorem path_eq {p : Progress} {path : Path} {own below : List Issue}
    (hp : p.report.Records path own below) : Parser.path p = (.ok path, p) := by
  rw [← hp.path_eq]
  rfl

theorem countCall_ends {p : Progress} {path : Path} {own below : List Issue}
    (hp : p.report.Records path own below) : countCall.Ends p () path own below :=
  ⟨_, rfl, hp⟩

/-- Steps that do the same yield the same. -/
theorem Yields.of_eq {x y : Parser (Option Value)} {p q : Progress} {path : Path} {o : Outcome}
    (h : x p = y q) (hy : y.Yields q path o) : x.Yields p path o := by
  cases o with
  | error e => exact (congrArg Prod.fst h).trans hy
  | ok o =>
      obtain ⟨p', hp', hl⟩ := hy
      exact ⟨p', h.trans hp', hl⟩

/-- An output given on a report without an issue, and nothing given on any other. -/
theorem Yields.of_after {out : Option Value} {p : Progress} {path : Path} {is : List Issue}
    {w : Value} (hp : p.report.Lists path is) (hout : out = if is.isEmpty then some w else none) :
    (pure out : Parser (Option Value)).Yields p path (.ok (.after is (.success w))) := by
  subst hout
  cases is with
  | nil => exact ⟨p, rfl, hp⟩
  | cons i is => exact ⟨p, rfl, hp⟩

/-- A refusal is a failure with one more issue. -/
theorem Yields.of_refuse {p : Progress} {path : Path} (hp : p.report.Records path [] [])
    (call : Call) (cause : Cause Issue) (message : Option String) (data : Value) :
    (refuse call cause message data : Parser (Option Value)).Yields p path
      (.ok (.failure ⟨call.issue cause path message data, []⟩)) := by
  obtain ⟨q, hq, hr⟩ := raise_ends hp call cause message data
  exact ⟨q, bind_eq hq, hr.lists⟩

/-! ## Observing a step -/

/-- A step on a report of its own amounts to the outcome it yields. -/
theorem Yields.outcome_eq {r : Runner} {v : Value} {path : Path} {o : Outcome}
    (h : (r v).Yields { report := { path := path } } path o) : r.outcome path v = o := by
  unfold Runner.outcome
  cases o with
  | error e =>
      have h : (r v { report := { path := path } }).1 = .error e := h
      show Except.map _ (r v { report := { path := path } }).1 = _
      rw [h]
      rfl
  | ok o =>
      obtain ⟨p', hr, hl⟩ := h
      rw [hr]
      cases o with
      | success w =>
          show Except.ok (p'.report.conclude (some w)) = _
          rw [Report.conclude, hl.isValid_eq]
          rfl
      | failure is =>
          show Except.ok (p'.report.conclude none) = _
          rw [Report.conclude, Report.conclude.issuesOf, hl.allIssues_eq]
          rfl

/-- What a step answers everywhere is its outcome. -/
theorem Answers.outcome_eq {r : Runner} {v : Value} {path : Path} {o : Outcome}
    (h : (r v).Answers path o) : r.outcome path v = o :=
  Yields.outcome_eq (h _ (Report.clean_empty path).records)

end Parser

end ValueSchema

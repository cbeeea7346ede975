import ValueSchema.Proofs.Run

/-!
# Results agree with reports

A step says by its result whether it accepts a value, and the report of its place says so
a second time, by marks, by a new look at everything below, and by its issues.
`Schema.step_agrees_with_report` says that the three never disagree, whatever the schema,
the value and the options are and in both modes.  In particular no value is refused
without an issue, and the issue that stands for none (`Issue.unexplained`) is never used.
-/

namespace ValueSchema

/-- A report that agrees with the result of a step: nothing is recorded if the step
accepts, and if it refuses there is an issue and both ways to look at the report call it
invalid. -/
def Report.AgreesWith (r : Report) : Except Misuse (Option Value) → Prop
  | .ok (some _) => r.Clean
  | .ok none => r.isInvalid = true ∧ r.isValid = false ∧ r.allIssues ≠ []
  | .error _ => True

namespace Parser

theorem Yields.agrees {x : Parser (Option Value)} {p : Progress} {path : Path} {o : Outcome}
    (h : x.Yields p path o) : (x p).2.report.AgreesWith (x p).1 := by
  match o, h with
  | .error e, h =>
      have h : (x p).1 = .error e := h
      rw [h]
      trivial
  | .ok (.success w), ⟨q, hq, hl⟩ =>
      rw [hq]
      exact hl.records.clean_of_nil
  | .ok (.failure is), ⟨q, hq, hl⟩ =>
      rw [hq]
      refine ⟨hl.isInvalid_eq, hl.isValid_eq, ?_⟩
      show q.report.allIssues ≠ []
      rw [hl.allIssues_eq]
      exact List.cons_ne_nil _ _

/-- The validation that a call makes of a step: the output that the step gives, or the
issues of the report, of which there is one. -/
theorem Yields.concludes {x : Parser (Option Value)} {p : Progress} {path : Path} {o : Outcome}
    (h : x.Yields p path o) :
    match x p with
    | (.ok (some w), _) => o = .ok (.success w)
    | (.ok none, q) => ∃ is, Issues.ofList? q.report.allIssues = some is ∧ o = .ok (.failure is)
    | (.error e, _) => o = .error e := by
  match o, h with
  | .error e, h =>
      have h : (x p).1 = .error e := h
      cases hx : x p with
      | mk result q =>
          rw [hx] at h
          obtain rfl : result = .error e := h
          rfl
  | .ok (.success w), ⟨q, hq, hl⟩ =>
      rw [hq]
      rfl
  | .ok (.failure is), ⟨q, hq, hl⟩ =>
      rw [hq]
      refine ⟨is, ?_, rfl⟩
      show Issues.ofList? q.report.allIssues = _
      rw [hl.allIssues_eq]
      rfl

end Parser

namespace Schema

/-- Every step on a clean report leaves a report that agrees with its result.  So a call
that does not find its answer in a cache succeeds just when the step at the root accepts,
and otherwise it fails with the issues of the report at the root, of which there is one. -/
theorem step_agrees_with_report (s : Schema) (mode : Mode) (options : Options) (v : Value) :
    (∀ (hops : Nat) (p : Progress), p.report.Clean →
      (s.runWithin ⟨options, mode⟩ hops v p).2.report.AgreesWith
        (s.runWithin ⟨options, mode⟩ hops v p).1) ∧
    (options.cache.bind (·.find? s.id v) = none →
      match s.run ⟨options, mode⟩ v { report := { path := .root } } with
      | (.ok (some w), _) => (s.safeParse mode options v).result = .ok (.success w)
      | (.ok none, q) => ∃ is, Issues.ofList? q.report.allIssues = some is ∧
          (s.safeParse mode options v).result = .ok (.failure is)
      | (.error e, _) => (s.safeParse mode options v).result = .error e) := by
  refine ⟨fun hops p hp => ?_, fun hcache => ?_⟩
  · exact (runWithin_answers ⟨options, mode⟩ hops s p.report.path v p hp.records).agrees
  · rw [safeParse_result s mode options v hcache]
    have hroot := runWithin_answers ⟨options, mode⟩ (hopsOf ⟨options, mode⟩) s .root v
    exact (hroot { report := { path := .root } } (Report.clean_empty .root).records).concludes

/-- A pair of a text and a truth value that stops at its first issue. -/
def pairNode : Schema :=
  ⟨0, .tuple [⟨1, .leaf .string, .empty, {}⟩, ⟨2, .leaf .boolean, .empty, {}⟩] none, .empty,
    { abortEarly := some true }⟩

theorem pair_agrees_with_report :
    (⟨{ path := .root }, 0⟩ : Progress).report.Clean ∧
      (pairNode.runWithin ⟨{}, .deferred⟩ 0 (.array [.null, .null]) ⟨{ path := .root }, 0⟩).1 =
        .ok none ∧
      (pairNode.runWithin ⟨{}, .deferred⟩ 0 (.array [.null, .null])
        ⟨{ path := .root }, 0⟩).2.report.AgreesWith (.ok none) ∧
      ∃ is, (pairNode.safeParse .deferred {} (.array [.null, .null])).result =
        .ok (.failure is) := by
  have hclean : (⟨{ path := .root }, 0⟩ : Progress).report.Clean := Report.clean_empty .root
  obtain ⟨hstep, hcall⟩ :=
    step_agrees_with_report pairNode .deferred {} (.array [.null, .null])
  refine ⟨hclean, rfl, hstep 0 _ hclean, ?_⟩
  obtain ⟨is, -, his⟩ := hcall rfl
  exact ⟨is, his⟩

end Schema

end ValueSchema

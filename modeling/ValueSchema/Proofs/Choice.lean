import ValueSchema.Proofs.Steps

/-!
# Outcomes of members

The members of a union and of an intersection run on the same value, each with a report
of its own.  A union reads these reports and attaches none, so it leaves the report of
its place as it is until it raises an issue (`tryMembers_chooses`).  An intersection
collects like a descent, except that a deferred one counts every misuse
(`runMembers_collects`).
-/

namespace ValueSchema

open ValueSchema.Parser

namespace Parser

/-- A step tries members and leaves the report of the place as it is.  The issues before
the step are those of members that were tried already. -/
def Chooses (x : Parser (Except (List Report) Value)) (p : Progress) (before : List Issue) :
    Except Misuse (Except (List Issue) Value) → Prop
  | .error e => (x p).1 = .error e
  | .ok (.ok w) => ∃ calls, x p = (.ok (.ok w), { p with calls := calls })
  | .ok (.error is) => ∃ calls reports, x p = (.ok (.error reports), { p with calls := calls }) ∧
      reports.flatMap Report.allIssues = before ++ is

namespace Chooses

variable {x y : Parser (Except (List Report) Value)} {p : Progress} {before is : List Issue}
  {c : Except Misuse (Except (List Issue) Value)}

theorem of_eq {calls : Nat} (h : x p = y { p with calls := calls })
    (hy : y.Chooses { p with calls := calls } before c) : x.Chooses p before c := by
  match c, hy with
  | .error _, hy => exact (congrArg Prod.fst h).trans hy
  | .ok (.ok _), ⟨calls', hr⟩ => exact ⟨calls', h.trans hr⟩
  | .ok (.error _), ⟨calls', reports, hr, hi⟩ => exact ⟨calls', reports, h.trans hr, hi⟩

/-- A member that fails adds its issues in front. -/
theorem extend (h : x.Chooses p (before ++ is) c) :
    x.Chooses p before (c.map (·.mapError (is ++ ·))) := by
  match c, h with
  | .error _, h => exact h
  | .ok (.ok _), h => exact h
  | .ok (.error _), ⟨calls, reports, hr, hi⟩ =>
      exact ⟨calls, reports, hr, hi.trans (List.append_assoc ..)⟩

end Chooses

end Parser

namespace Schema

/-! ## Unions -/

theorem tryInTurn_chooses {here : Path} {v : Value} {ms : List Runner} {os : List Outcome}
    (h : List.Forall₂ (fun m o => (m v).Answers here o) ms os) :
    ∀ (p : Progress) (reports : List Report),
      (tryInTurn here v reports ms).Chooses p (reports.flatMap Report.allIssues)
        (Outcome.choose os) := by
  induction h with
  | nil => exact fun p reports => ⟨p.calls, reports, rfl, (List.append_nil _).symm⟩
  | @cons m o ms os hm hms ih =>
      intro p reports
      obtain ⟨⟨result, report⟩, calls, hr, hro⟩ := isolated_reports hm p
      cases o with
      | error e =>
          have hro : result = .error e := hro
          subst hro
          show (tryInTurn here v reports (m :: ms) p).1 = _
          rw [tryInTurn, bind_eq hr]
          rfl
      | ok o =>
          obtain ⟨hro, at', hl⟩ := hro
          have hro : result = .ok o.output? := hro
          subst hro
          have hstep : tryInTurn here v reports (m :: ms) p =
              (o.output?.elim (tryInTurn here v (reports ++ [report]) ms) fun w => pure (.ok w))
                { p with calls := calls } := by
            rw [tryInTurn, bind_eq hr]
            show (Parser.ofExcept (.ok o.output?) >>= fun _ => _) _ = _
            rw [bind_eq (ofExcept_ok o.output? _), accepted_eq hl]
            cases o <;> rfl
          refine .of_eq hstep ?_
          cases o with
          | success w => exact ⟨calls, rfl⟩
          | failure is =>
              refine Chooses.extend ?_
              have hrest := ih { p with calls := calls } (reports ++ [report])
              rwa [List.flatMap_append, List.flatMap_singleton, hl.allIssues_eq] at hrest

theorem firstAccepted_chooses {rs : List (Except Misuse (Option Value) × Report)}
    {os : List Outcome} (h : List.Forall₂ Reports rs os) :
    ∀ (p : Progress) (reports : List Report),
      (firstAccepted reports rs).Chooses p (reports.flatMap Report.allIssues)
        (Outcome.choose os) := by
  induction h with
  | nil => exact fun p reports => ⟨p.calls, reports, rfl, (List.append_nil _).symm⟩
  | @cons r o rs os hr hrs ih =>
      intro p reports
      obtain ⟨result, report⟩ := r
      cases o with
      | error e =>
          have hr : result = .error e := hr
          subst hr
          rfl
      | ok o =>
          obtain ⟨hr, at', hl⟩ := hr
          have hr : result = .ok o.output? := hr
          subst hr
          have hstep : firstAccepted reports ((.ok o.output?, report) :: rs) p =
              (o.output?.elim (firstAccepted (reports ++ [report]) rs)
                fun w => pure (.ok w)) p := by
            rw [firstAccepted, bind_eq (ofExcept_ok o.output? _), accepted_eq hl]
            cases o <;> rfl
          refine .of_eq hstep ?_
          cases o with
          | success w => exact ⟨p.calls, rfl⟩
          | failure is =>
              refine Chooses.extend ?_
              have hrest := ih p (reports ++ [report])
              rwa [List.flatMap_append, List.flatMap_singleton, hl.allIssues_eq] at hrest

/-- Both modes of trying members choose among their outcomes. -/
theorem tryMembers_chooses (call : Call) {here : Path} {v : Value} {ms : List Runner}
    {os : List Outcome} (h : List.Forall₂ (fun m o => (m v).Answers here o) ms os) {p : Progress}
    (hp : p.report.path = here) : (tryMembers call ms v).Chooses p [] (Outcome.choose os) := by
  subst hp
  unfold tryMembers
  have hpath : Parser.path p = (.ok p.report.path, p) := rfl
  refine .of_eq (bind_eq hpath) ?_
  cases call.mode with
  | immediate => exact tryInTurn_chooses h p []
  | deferred =>
      have hxs : List.Forall₂ (fun x o => Answers x.2 x.1 o)
          (ms.map fun m => (p.report.path, m v)) os := List.forall₂_map_left_iff.mpr h
      obtain ⟨rs, calls, hrs, hro⟩ := runAll_reports hxs p
      exact .of_eq (bind_eq hrs) (firstAccepted_chooses hro _ [])

/-! ## Intersections -/

variable {here : Path} {v : Value} {own : List Issue}

theorem runInTurn_collects (stops : Bool) {ms : List Runner} {os : List Outcome}
    (h : List.Forall₂ (fun m o => (m v).Answers here o) ms os) :
    ∀ {p : Progress} {below : List Issue}, p.report.Records here own below →
      (runInTurn stops here v ms).Collects some p here own below (Outcome.gather stops os) := by
  induction h with
  | nil =>
      intro p below hp
      exact .of_pure (some []) (by rwa [List.append_nil]) fun _ => rfl
  | @cons m o ms os hm hms ih =>
      intro p below hp
      obtain ⟨⟨result, report⟩, calls, hr, hro⟩ := isolated_reports hm p
      cases o with
      | error e =>
          have hro : result = .error e := hro
          subst hro
          show (runInTurn stops here v (m :: ms) p).1 = _
          rw [runInTurn, bind_eq hr]
          rfl
      | ok o =>
          obtain ⟨hro, at', hl⟩ := hro
          have hro : result = .ok o.output? := hro
          subst hro
          obtain ⟨q, hqa, hq⟩ := attach_ends (p := { p with calls := calls }) hp hl
          have hstep : runInTurn stops here v (m :: ms) p = (o.output?.elim
              (if stops then return none else runInTurn stops here v ms)
              fun w => do return (← runInTurn stops here v ms).map (w :: ·) : Parser _) q := by
            rw [runInTurn, bind_eq hr]
            show (attach report >>= fun _ => _) _ = _
            rw [bind_eq hqa]
            show (Parser.ofExcept (.ok o.output?) >>= fun _ => _) _ = _
            rw [bind_eq (ofExcept_ok o.output? q), accepted_eq hl]
            cases o <;> rfl
          refine .of_eq hstep ?_
          cases o with
          | success w =>
              exact (ih hq).extend (f := Option.map (w :: ·)) (g := (w :: ·)) fun _ _ => rfl
          | failure is =>
              cases stops with
              | true => exact .of_pure none hq fun h => nomatch h
              | false => exact (ih hq).prepend fun h => nomatch h

/-- A misuse of any member ends an intersection whose members ran together. -/
theorem gather_misuse (stops : Bool) {e : Misuse}
    {rs : List (Except Misuse (Option Value) × Report)} {os : List Outcome}
    (h : List.Forall₂ Reports rs os) (he : Outcome.misuse? os = some e) :
    ∀ (p : Progress) (failed : Bool), (gather stops failed rs p).1 = .error e := by
  induction h with
  | nil => exact nomatch he
  | @cons r o rs os hr hrs ih =>
      intro p failed
      obtain ⟨result, report⟩ := r
      cases o with
      | error e' =>
          have hr : result = .error e' := hr
          have he : e' = e := Option.some.inj he
          subst hr he
          rfl
      | ok o =>
          have hr : result = .ok o.output? := hr.1
          subst hr
          rw [gather, bind_eq (ofExcept_ok o.output? p)]
          split
          · rw [bind_eq (x := Parser.discard report) (a := ()) rfl]
            exact ih he _ _
          · rw [bind_eq (x := attach report) (a := ()) rfl]
            cases accepted o.output? report with
            | some w => exact bind_error (ih he _ _)
            | none => exact ih he _ _

/-- Once a member has failed and the node stops, the reports of all further members are
discarded. -/
theorem gather_discards {rs : List (Except Misuse (Option Value) × Report)} {os : List Outcome}
    (h : List.Forall₂ Reports rs os) (he : Outcome.misuse? os = none) :
    ∀ {p : Progress} {below : List Issue}, p.report.Records here own below → below ≠ [] →
      (gather true true rs).Ends p [] here own below := by
  induction h with
  | nil => exact fun hp _ => .of_pure _ hp
  | @cons r o rs os hr hrs ih =>
      intro p below hp hb
      obtain ⟨result, report⟩ := r
      cases o with
      | error e => exact nomatch he
      | ok o =>
          have hr : result = .ok o.output? := hr.1
          subst hr
          obtain ⟨q, hqd, hq⟩ := discard_ends hp hb report
          obtain ⟨q', hq', hr'⟩ := ih he hq hb
          refine ⟨q', ?_, hr'⟩
          have hstop : (true && true) = true := rfl
          rw [gather, bind_eq (ofExcept_ok o.output? p), if_pos hstop, bind_eq hqd, hq']

theorem gather_collects (stops : Bool) {rs : List (Except Misuse (Option Value) × Report)}
    {os : List Outcome} (h : List.Forall₂ Reports rs os) (he : Outcome.misuse? os = none) :
    ∀ {p : Progress} {below : List Issue} (failed : Bool), p.report.Records here own below →
      (failed && stops) = false →
      (gather stops failed rs).Collects (fun ws => ws) p here own below
        (Outcome.gather stops os) := by
  induction h with
  | nil =>
      intro p below failed hp _
      exact .of_pure [] (by rwa [List.append_nil]) fun _ => rfl
  | @cons r o rs os hr hrs ih =>
      intro p below failed hp hf
      obtain ⟨result, report⟩ := r
      cases o with
      | error e => cases he
      | ok o =>
          obtain ⟨hr, at', hl⟩ := hr
          have hr : result = .ok o.output? := hr
          subst hr
          obtain ⟨q, hqa, hq⟩ := attach_ends hp hl
          have hstep : gather stops failed ((.ok o.output?, report) :: rs) p =
              (o.output?.elim (gather stops true rs)
                fun w => do return w :: (← gather stops failed rs) : Parser _) q := by
            rw [gather, bind_eq (ofExcept_ok o.output? p), if_neg (by simp [hf]), bind_eq hqa,
              accepted_eq hl]
            cases o <;> rfl
          refine .of_eq hstep ?_
          cases o with
          | success w => exact (ih he _ hq hf).extend (f := (w :: ·)) (g := (w :: ·)) fun _ _ => rfl
          | failure is =>
              cases stops with
              | true =>
                  have hb : below ++ is.toList ≠ [] := by simp [Issues.toList]
                  exact ⟨[], gather_discards hrs he hq hb, fun h => absurd h (List.cons_ne_nil _ _)⟩
              | false => exact (ih he _ hq (Bool.and_false _)).prepend (List.cons_ne_nil _ _)

/-- An immediate intersection gathers the outcomes of its members, and a deferred one
counts every misuse. -/
theorem runMembers_collects (call : Call) (stops : Bool) {ms : List Runner} {os : List Outcome}
    (h : List.Forall₂ (fun m o => (m v).Answers here o) ms os) {p : Progress}
    {below : List Issue} (hp : p.report.Records here own below) :
    (runMembers call stops ms v).Collects some p here own below
      (Outcome.gatherMembers call.mode stops os) := by
  unfold runMembers Outcome.gatherMembers
  refine .of_eq (bind_eq (path_eq hp)) ?_
  cases call.mode with
  | immediate => exact runInTurn_collects stops h hp
  | deferred =>
      have hxs : List.Forall₂ (fun x o => Answers x.2 x.1 o) (ms.map fun m => (here, m v)) os :=
        List.forall₂_map_left_iff.mpr h
      obtain ⟨rs, calls, hrs, hro⟩ := runAll_reports hxs p
      refine .of_eq (bind_eq hrs) ?_
      unfold Outcome.gatherAll
      cases he : Outcome.misuse? os with
      | some e => exact bind_error (gather_misuse stops hro he _ _)
      | none =>
          have hgather := gather_collects stops hro he (p := { p with calls := calls }) false hp rfl
          exact hgather.wrap fun _ => rfl

end Schema

end ValueSchema

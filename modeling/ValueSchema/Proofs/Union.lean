import ValueSchema.Proofs.Composition
import ValueSchema.Proofs.Success

/-!
# Unions

The members of a union run on reports of their own, which are dropped in the end.
`Schema.runWithin_union` is what that leaves to be seen, in both modes and on every report.
A union gives the output of its first member that succeeds and leaves the report as it is.
If all members fail, it raises one issue that holds the issues of all of them in order.
It is a misuse when a member is one and those before it fail.

What members amount to together is said by `Plan.choose_ok_iff`, `Plan.choose_failed_iff` and
`Plan.choose_misuse_iff`, one for each way to end.
-/

namespace ValueSchema

open ValueSchema.Parser

namespace Plan

variable {visit : Visit → Outcome}

/-- No step succeeds just when all fail, and their issues are listed in order. -/
theorem choose_failed_iff {ts : List Visit} {is : List Issue} :
    Outcome.choose (ts.map visit) = .ok (.error is) ↔
      (∀ t ∈ ts, ∃ js, visit t = .ok (.failure js)) ∧
        is = ts.flatMap fun t => (visit t).issues := by
  induction ts generalizing is with
  | nil => simp [Outcome.choose, eq_comm]
  | cons t ts ih =>
      rw [List.map_cons, List.forall_mem_cons, List.flatMap_cons]
      cases visit t with
      | error e => simp [Outcome.choose]
      | ok o =>
          cases o with
          | success w => simp [Outcome.choose]
          | failure js =>
              rw [Outcome.choose, Outcome.map_eq_ok_iff]
              constructor
              · rintro ⟨r, hr, hf⟩
                cases r with
                | ok w => cases hf
                | error ks =>
                    obtain ⟨hts, rfl⟩ := ih.mp hr
                    obtain rfl := Except.error.inj hf
                    exact ⟨⟨⟨js, rfl⟩, hts⟩, rfl⟩
              · rintro ⟨⟨-, hts⟩, rfl⟩
                exact ⟨_, ih.mpr ⟨hts, rfl⟩, rfl⟩

/-- A misuse counts when no step before it succeeds. -/
theorem choose_misuse_iff {ts : List Visit} {e : Misuse} :
    Outcome.choose (ts.map visit) = .error e ↔
      ∃ before t after, ts = before ++ t :: after ∧
        (∀ u ∈ before, ∃ is, visit u = .ok (.failure is)) ∧ visit t = .error e := by
  induction ts with
  | nil => simp [Outcome.choose]
  | cons t ts ih =>
      rw [exists_first_cons, ← ih, List.map_cons]
      cases visit t with
      | error e' => simp [Outcome.choose]
      | ok o =>
          cases o with
          | success w => simp [Outcome.choose]
          | failure is =>
              rw [Outcome.choose]
              cases Outcome.choose (ts.map visit) <;> simp [Except.map]

/-- Steps on the same value, as they are split among visits, are split among schemas. -/
theorem split_visits {hops : Nat} {path : Path} {v : Value} {members : List Schema}
    {before after : List Visit} {t : Visit}
    (h : members.map (fun s => (⟨hops, s, path, v⟩ : Visit)) = before ++ t :: after) :
    ∃ ms m ms', members = ms ++ m :: ms' ∧ before = ms.map (fun s => ⟨hops, s, path, v⟩) ∧
      t = ⟨hops, m, path, v⟩ := by
  obtain ⟨ms, rest, rfl, rfl, hrest⟩ := List.map_eq_append_iff.mp h
  obtain ⟨m, ms', rfl, rfl, -⟩ := List.map_eq_cons_iff.mp hrest
  exact ⟨ms, m, ms', rfl, rfl, rfl⟩

end Plan

namespace Schema

variable {call : Call} {hops : Nat} {v : Value} {members : List Schema}

theorem parseUnion_eq_of_ok {node : Schema} {runners : List Runner} {p q : Progress} {w : Value}
    (h : tryMembers call runners v p = (.ok (.ok w), q)) :
    node.parseUnion call runners v p = (.ok (some w), q) :=
  bind_eq h

theorem parseUnion_eq_of_failed {node : Schema} {runners : List Runner} {p q : Progress}
    {reports : List Report} (h : tryMembers call runners v p = (.ok (.error reports), q)) :
    node.parseUnion call runners v p =
      (.ok none, { q with report := q.report.raise (call.issue
        (.invalidUnion (reports.flatMap Report.allIssues)) q.report.path
        node.settings.typeMessage v) }) :=
  bind_eq h

/-- A union on any report, in either mode, given what its members amount to when each runs
alone at the place of the union.  The report is all of a call's record that a node can reach:
what is recorded above it sees the report afterwards, as it is then.

* It gives the output of its first member that succeeds, and the report is the same as before.
* Or all members fail.  Then it gives nothing and raises one issue, at the place of the union and
  about its value, which holds the issues of all members in the order of the members.
* Or it ends in the misuse of a member before which all fail. -/
theorem runWithin_union (id : Nat) (members : List Schema) (checks : Checks) (settings : Settings)
    (call : Call) (hops : Nat) (v : Value) (p : Progress) :
    let own (t : Schema) : Outcome := Visit.outcome call ⟨hops, t, p.report.path, v⟩
    let ended := runWithin call hops ⟨id, .union members, checks, settings⟩ v p
    (∃ before t after w calls, members = before ++ t :: after ∧
      (∀ u ∈ before, ∃ is, own u = .ok (.failure is)) ∧ own t = .ok (.success w) ∧
      ended = (.ok (some w), { p with calls := calls })) ∨
    (∃ calls raised, (∀ u ∈ members, ∃ is, own u = .ok (.failure is)) ∧
      raised = call.issue (.invalidUnion (members.flatMap fun u => (own u).issues)) p.report.path
        settings.typeMessage v ∧
      raised.cause = .invalidUnion (members.flatMap fun u => (own u).issues) ∧
      raised.path = p.report.path ∧ raised.data = v ∧
      ended = (.ok none, ⟨p.report.raise raised, calls⟩)) ∨
    (∃ before t after e, members = before ++ t :: after ∧
      (∀ u ∈ before, ∃ is, own u = .ok (.failure is)) ∧ own t = .error e ∧
      ended.1 = .error e) := by
  intro own ended
  have hanswers : AnswersFor (runWithin call hops) hops (Visit.outcome call) members :=
    fun s _ path w => s.runWithin_answers call hops path w
  have hended : ended = parseUnion ⟨id, .union members, checks, settings⟩ call
      (members.map (runWithin call hops)) v p := by
    show runWithin call hops ⟨id, .union members, checks, settings⟩ v p = _
    rw [runWithin_eq]
    show parseUnion _ call ((members.map fun t => (t, runWithin call hops t)).map Prod.snd) v p = _
    rw [List.map_map]
    rfl
  rw [hended]
  have hchooses := tryMembers_chooses call (memberAnswers hanswers v) (p := p) rfl
  match hc : Outcome.choose _, hchooses with
  | .ok (.ok w), ⟨calls, hr⟩ =>
      obtain ⟨before, t, after, hsplit, hbefore, ht⟩ := Plan.choose_ok_iff.mp hc
      obtain ⟨ms, m, ms', rfl, rfl, rfl⟩ := Plan.split_visits hsplit
      exact .inl ⟨ms, m, ms', w, calls, rfl, fun u hu => hbefore _ (List.mem_map_of_mem hu), ht,
        parseUnion_eq_of_ok hr⟩
  | .ok (.error is), ⟨calls, reports, hr, hi⟩ =>
      obtain ⟨hall, rfl⟩ := Plan.choose_failed_iff.mp hc
      refine .inr (.inl ⟨calls, _, fun u hu => hall _ (List.mem_map_of_mem hu), rfl, rfl, rfl, rfl,
        ?_⟩)
      rw [parseUnion_eq_of_failed hr, hi, List.nil_append, List.flatMap_map]
  | .error e, hr =>
      obtain ⟨before, t, after, hsplit, hbefore, ht⟩ := Plan.choose_misuse_iff.mp hc
      obtain ⟨ms, m, ms', rfl, rfl, rfl⟩ := Plan.split_visits hsplit
      exact .inr (.inr ⟨ms, m, ms', e, rfl, fun u hu => hbefore _ (List.mem_map_of_mem hu), ht,
        bind_error hr⟩)

/-- A list of texts, or anything else. -/
def textsOrAny : Schema :=
  ⟨3, .union [⟨1, .array ⟨0, .leaf .string, .empty, {}⟩, .empty, {}⟩, ⟨2, .leaf .any, .empty, {}⟩],
    .empty, {}⟩

/-- An issue of an item of a member is not seen outside when another member succeeds. -/
example (p : Progress) :
    runWithin ⟨{}, .deferred⟩ 0 textsOrAny (.array [.null]) p = (.ok (some (.array [.null])), p) :=
  rfl

end Schema

end ValueSchema

import ValueSchema.Proofs.Heeded

/-!
# Plans that do the same in other words

A `Translation` says how the schemas, paths, issues and misuses of one call read in another
call.  `Plan.Translates` relates two plans that do the same, the second one in the words of the
other call.  Then the outcome of the second plan is that of the first one, translated
(`Plan.Translates.outcome_eq`), as soon as this is so for the visits that the first one heeds.
The other visits may differ in whatever they do.
-/

namespace ValueSchema

/-! ## Translations -/

/-- How one call reads in another one.  What is not said stays as it is. -/
structure Translation where
  /-- Schemas. -/
  schema : Schema → Schema := id
  /-- The messages that nodes and checks have of their own. -/
  message : Option String → Option String := id
  /-- Paths. -/
  path : Path → Path := id
  /-- How many lazy nodes may still be resolved. -/
  hops : Nat → Nat := id
  /-- Issues. -/
  issue : Issue → Issue := id
  /-- Misuses. -/
  misuse : Misuse → Misuse := id

namespace Translation

variable (tr : Translation)

/-- A visit, translated. -/
def visit (t : Visit) : Visit := ⟨tr.hops t.hops, tr.schema t.schema, tr.path t.path, t.value⟩

/-- A validation with its issues translated. -/
def validation : Validation → Validation
  | .success w => .success w
  | .failure is => .failure ⟨tr.issue is.head, is.tail.map tr.issue⟩

/-- An answer that is translated if it is a misuse, and changed otherwise. -/
def answer {α : Type} (f : α → α) : Except Misuse α → Except Misuse α
  | .ok a => .ok (f a)
  | .error e => .error (tr.misuse e)

/-- An outcome, translated. -/
def outcome (o : Outcome) : Outcome := tr.answer tr.validation o

/-- Issues and outputs of steps with the issues translated. -/
def collected (r : List Issue × List Value) : List Issue × List Value := (r.1.map tr.issue, r.2)

theorem validation_after (is : List Issue) (o : Validation) :
    tr.validation (.after is o) = .after (is.map tr.issue) (tr.validation o) := by
  cases is <;> rfl

end Translation

/-! ## Steps -/

namespace Plan

variable {tr : Translation} {mode : Mode} {visit visit' : Visit → Outcome}

theorem gather_translated (stops : Bool) :
    ∀ {ts : List Visit},
      (∀ t ∈ reachedIn stops visit ts, visit' (tr.visit t) = tr.outcome (visit t)) →
      Outcome.gather stops ((ts.map tr.visit).map visit') =
        tr.answer tr.collected (Outcome.gather stops (ts.map visit))
  | [], _ => rfl
  | t :: ts, h => by
      have ht := h t (mem_reachedIn_head stops visit t ts)
      rw [reachedIn] at h
      rw [List.map_cons, List.map_cons, List.map_cons, ht]
      cases hv : visit t with
      | error e => rfl
      | ok o =>
          rw [hv] at h
          cases o with
          | success w =>
              have ih := gather_translated stops fun u hu => h u (List.mem_cons_of_mem _ hu)
              show Except.map _ (Outcome.gather stops ((ts.map tr.visit).map visit')) =
                tr.answer tr.collected (Except.map _ (Outcome.gather stops (ts.map visit)))
              rw [ih]
              cases Outcome.gather stops (ts.map visit) <;> rfl
          | failure is =>
              cases stops with
              | true => rfl
              | false =>
                  have ih := gather_translated false fun u hu => h u (List.mem_cons_of_mem _ hu)
                  show Except.map _ (Outcome.gather false ((ts.map tr.visit).map visit')) =
                    tr.answer tr.collected (Except.map _ (Outcome.gather false (ts.map visit)))
                  rw [ih]
                  cases Outcome.gather false (ts.map visit) with
                  | error e => rfl
                  | ok r =>
                      have happ : (is.toList ++ r.1).map tr.issue =
                          is.toList.map tr.issue ++ r.1.map tr.issue := List.map_append
                      exact congrArg (fun l => Except.ok (l, r.2)) happ.symm

theorem misuse?_translated :
    ∀ {ts : List Visit},
      (∀ t ∈ reachedIn false visit ts, visit' (tr.visit t) = tr.outcome (visit t)) →
      Outcome.misuse? ((ts.map tr.visit).map visit') =
        (Outcome.misuse? (ts.map visit)).map tr.misuse
  | [], _ => rfl
  | t :: ts, h => by
      have ht := h t (mem_reachedIn_head false visit t ts)
      rw [reachedIn] at h
      rw [List.map_cons, List.map_cons, List.map_cons, ht]
      cases hv : visit t with
      | error e => rfl
      | ok o =>
          rw [hv] at h
          cases o with
          | success w => exact misuse?_translated fun u hu => h u (List.mem_cons_of_mem _ hu)
          | failure is => exact misuse?_translated fun u hu => h u (List.mem_cons_of_mem _ hu)

/-- The visits of an intersection that are heeded without a misuse are all there are. -/
theorem reachedIn_subset_of_misuse?_eq_none (stops : Bool) :
    ∀ {ts : List Visit}, Outcome.misuse? (ts.map visit) = none →
      reachedIn stops visit ts ⊆ reachedIn false visit ts
  | [], _ => List.Subset.refl _
  | t :: ts, hm => by
      rw [List.map_cons] at hm
      rw [reachedIn, reachedIn]
      cases hv : visit t with
      | error e =>
          rw [hv] at hm
          cases hm
      | ok o =>
          rw [hv] at hm
          have ih : reachedIn stops visit ts ⊆ reachedIn false visit ts :=
            reachedIn_subset_of_misuse?_eq_none stops hm
          cases o with
          | success w => exact List.cons_subset_cons t ih
          | failure is =>
              cases stops with
              | true => exact List.cons_subset.mpr ⟨List.mem_cons_self .., List.nil_subset _⟩
              | false => exact List.Subset.refl _

theorem gatherMembers_translated (stops : Bool) {ts : List Visit}
    (h : ∀ t ∈ joinedIn mode stops visit ts, visit' (tr.visit t) = tr.outcome (visit t)) :
    Outcome.gatherMembers mode stops ((ts.map tr.visit).map visit') =
      tr.answer tr.collected (Outcome.gatherMembers mode stops (ts.map visit)) := by
  cases mode with
  | immediate => exact gather_translated stops h
  | deferred =>
      show Outcome.gatherAll stops _ = tr.answer tr.collected (Outcome.gatherAll stops _)
      rw [Outcome.gatherAll, Outcome.gatherAll, misuse?_translated h]
      cases hm : Outcome.misuse? (ts.map visit) with
      | some e => rfl
      | none =>
          have hsub := reachedIn_subset_of_misuse?_eq_none stops hm
          exact gather_translated stops fun t ht => h t (hsub ht)

theorem choose_translated :
    ∀ {ts : List Visit},
      (∀ t ∈ triedIn visit ts, visit' (tr.visit t) = tr.outcome (visit t)) →
      Outcome.choose ((ts.map tr.visit).map visit') =
        tr.answer (·.mapError (List.map tr.issue)) (Outcome.choose (ts.map visit))
  | [], _ => rfl
  | t :: ts, h => by
      have ht := h t (mem_triedIn_head visit t ts)
      rw [triedIn] at h
      rw [List.map_cons, List.map_cons, List.map_cons, ht]
      cases hv : visit t with
      | error e => rfl
      | ok o =>
          rw [hv] at h
          cases o with
          | success w => rfl
          | failure is =>
              have ih := choose_translated fun u hu => h u (List.mem_cons_of_mem _ hu)
              show Except.map _ (Outcome.choose ((ts.map tr.visit).map visit')) =
                tr.answer _ (Except.map _ (Outcome.choose (ts.map visit)))
              rw [ih]
              cases Outcome.choose (ts.map visit) with
              | error e => rfl
              | ok r =>
                  cases r with
                  | error js =>
                      have happ : (is.toList ++ js).map tr.issue =
                          is.toList.map tr.issue ++ js.map tr.issue := List.map_append
                      exact congrArg (fun l => Except.ok (Except.error l)) happ.symm
                  | ok w => rfl

theorem conclude_translated {build build' : List Value → Validation}
    (h : ∀ ws, build' ws = tr.validation (build ws))
    (c : Except Misuse (List Issue × List Value)) :
    conclude (tr.answer tr.collected c) build' = tr.outcome (conclude c build) := by
  cases c with
  | error e => rfl
  | ok r =>
      show Except.ok (Validation.after _ (build' r.2)) =
        Except.ok (tr.validation (Validation.after _ _))
      rw [tr.validation_after, h]

/-! ## Plans -/

/-- The second plan does what the first one does, in other words. -/
inductive Translates (tr : Translation) : Plan → Plan → Prop where
  | done (o : Outcome) : Translates tr (.done o) (.done (tr.outcome o))
  | andThen {t : Visit} {next next' : Value → Plan} :
      (∀ w, Translates tr (next w) (next' w)) →
      Translates tr (.andThen t next) (.andThen (tr.visit t) next')
  | parts {own : List Issue} {stops : Bool} {ts : List Visit}
      {build build' : List Value → Validation} :
      (∀ ws, build' ws = tr.validation (build ws)) →
      Translates tr (.parts own stops ts build)
        (.parts (own.map tr.issue) stops (ts.map tr.visit) build')
  | union {ts : List Visit} {refusal refusal' : List Issue → Issue} :
      (∀ is, refusal' (is.map tr.issue) = tr.issue (refusal is)) →
      Translates tr (.union ts refusal) (.union (ts.map tr.visit) refusal')
  | intersection {stops : Bool} {ts : List Visit} {build build' : List Value → Validation} :
      (∀ ws, build' ws = tr.validation (build ws)) →
      Translates tr (.intersection stops ts build)
        (.intersection stops (ts.map tr.visit) build')

theorem Translates.misuse {e e' : Misuse} (h : tr.misuse e = e') :
    Translates tr (.done (.error e)) (.done (.error e')) :=
  h ▸ .done (.error e)

theorem Translates.pass {t t' : Visit} (h : tr.visit t = t') : Translates tr (.pass t) (.pass t') :=
  h ▸ .andThen fun w => .done (.ok (.success w))

/-- A translated plan amounts to the same, translated, if the visits that count do. -/
theorem Translates.outcome_eq {pl pl' : Plan} (h : Translates tr pl pl') :
    (∀ t ∈ pl.heeded mode visit, visit' (tr.visit t) = tr.outcome (visit t)) →
      pl'.outcome mode visit' = tr.outcome (pl.outcome mode visit) := by
  induction h with
  | done o => exact fun _ => rfl
  | @andThen t next next' _ ih =>
      intro hv
      rw [heeded] at hv
      rw [outcome, outcome, hv t (List.mem_cons_self ..)]
      cases hvt : visit t with
      | error e => rfl
      | ok o =>
          rw [hvt] at hv
          cases o with
          | success w => exact ih w fun u hu => hv u (List.mem_cons_of_mem _ hu)
          | failure is => rfl
  | @parts own stops ts build build' hb =>
      intro hv
      rw [outcome, outcome]
      by_cases hown : own ≠ [] ∧ stops = true
      · obtain ⟨hne, rfl⟩ := hown
        have hmapped : own.map tr.issue ≠ [] := by simpa using hne
        rw [Outcome.gather_raised_stops hne, Outcome.gather_raised_stops hmapped]
        exact conclude_translated hb (.ok (own, []))
      · have hdescends : own ≠ [] → stops = false := by simpa using hown
        have hmapped : own.map tr.issue ≠ [] → stops = false := by simpa using hown
        rw [heeded, partsIn_of_descends hdescends] at hv
        rw [Outcome.gather_raised hdescends, Outcome.gather_raised hmapped,
          gather_translated stops hv, ← conclude_translated hb]
        refine congrArg (conclude · build') ?_
        cases Outcome.gather stops (ts.map visit) with
        | error e => rfl
        | ok r => exact congrArg (fun l => Except.ok (l, r.2)) List.map_append.symm
  | @union ts refusal refusal' hr =>
      intro hv
      rw [outcome, outcome, choose_translated hv]
      cases Outcome.choose (ts.map visit) with
      | error e => rfl
      | ok r =>
          cases r with
          | error is => exact congrArg (fun i => Except.ok (Validation.failure ⟨i, []⟩)) (hr is)
          | ok w => rfl
  | @intersection stops ts build build' hb =>
      intro hv
      rw [outcome, outcome, gatherMembers_translated stops hv]
      exact conclude_translated hb _

end Plan

end ValueSchema

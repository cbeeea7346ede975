import ValueSchema.Proofs.Parity

/-!
# Where a misuse comes from

A plan *heeds* the visits that it makes before it ends (`Plan.heeded`).  Its outcome rests on
their outcomes and on no others, and the first misuse among them is its own.

So every misuse of a call is reported by one visit: of an effect that would have to wait, or of a
lazy node that cannot be resolved (`Visit.Reports`).  A chain of heeded visits leads there
(`Visit.outcome_error_iff`), and the chain counts the lazy nodes that are resolved one inside the
other (`Visit.Nests`).
-/

namespace ValueSchema

/-! ## Misuses of steps -/

namespace Outcome

theorem map_eq_error_iff {α β : Type} {x : Except Misuse α} {f : α → β} {e : Misuse} :
    x.map f = .error e ↔ x = .error e := by
  cases x <;> simp [Except.map]

end Outcome

namespace Plan

variable {mode : Mode} {visit : Visit → Outcome} {e : Misuse}

/-- Steps that all have to succeed end with the misuse of one that they reach. -/
theorem gather_error_iff (stops : Bool) (ts : List Visit) :
    Outcome.gather stops (ts.map visit) = .error e ↔
      ∃ u ∈ reachedIn stops visit ts, visit u = .error e := by
  induction ts with
  | nil => simp [reachedIn, Outcome.gather]
  | cons t ts ih =>
      rw [List.map_cons, reachedIn]
      cases ht : visit t with
      | error e' => simp [Outcome.gather, ht]
      | ok o =>
          cases o with
          | success w => simp [Outcome.gather, Outcome.map_eq_error_iff, ih, ht]
          | failure is =>
              cases stops with
              | true => simp [Outcome.gather, ht]
              | false => simp [Outcome.gather, Outcome.map_eq_error_iff, ih, ht]

/-- Steps one of which has to succeed end with the misuse of one that they try. -/
theorem choose_error_iff (ts : List Visit) :
    Outcome.choose (ts.map visit) = .error e ↔ ∃ u ∈ triedIn visit ts, visit u = .error e := by
  induction ts with
  | nil => simp [triedIn, Outcome.choose]
  | cons t ts ih =>
      rw [List.map_cons, triedIn]
      cases ht : visit t with
      | error e' => simp [Outcome.choose, ht]
      | ok o =>
          cases o with
          | success w => simp [Outcome.choose, ht]
          | failure is => simp [Outcome.choose, Outcome.map_eq_error_iff, ih, ht]

/-- The first misuse of steps is that of one that they reach without stops. -/
theorem misuse?_eq_some_iff (ts : List Visit) :
    Outcome.misuse? (ts.map visit) = some e ↔
      ∃ u ∈ reachedIn false visit ts, visit u = .error e := by
  induction ts with
  | nil => simp [reachedIn, Outcome.misuse?]
  | cons t ts ih =>
      rw [List.map_cons, reachedIn]
      cases ht : visit t with
      | error e' => simp [Outcome.misuse?, ht]
      | ok o => cases o <;> simp [Outcome.misuse?, ih, ht]

/-! ## The visits that a plan heeds -/

/-- The parts of a container that count. -/
def partsIn (own : List Issue) (stops : Bool) (visit : Visit → Outcome) (ts : List Visit) :
    List Visit :=
  if stops && !own.isEmpty then [] else reachedIn stops visit ts

/-- The members of an intersection that count. -/
def joinedIn (mode : Mode) (stops : Bool) (visit : Visit → Outcome) (ts : List Visit) :
    List Visit :=
  match mode with
  | .immediate => reachedIn stops visit ts
  | .deferred => reachedIn false visit ts

/-- The visits on whose outcomes the outcome of a plan rests. -/
def heeded (mode : Mode) (visit : Visit → Outcome) : Plan → List Visit
  | .done _ => []
  | .andThen t next =>
      t :: (match visit t with
        | .ok (.success w) => (next w).heeded mode visit
        | _ => [])
  | .parts own stops ts _ => partsIn own stops visit ts
  | .union ts _ => triedIn visit ts
  | .intersection stops ts _ => joinedIn mode stops visit ts

theorem partsIn_of_descends {own : List Issue} {stops : Bool} {ts : List Visit}
    (h : own ≠ [] → stops = false) : partsIn own stops visit ts = reachedIn stops visit ts := by
  refine if_neg ?_
  cases stops <;> simp_all

theorem partsIn_subset {own : List Issue} {stops : Bool} {ts : List Visit} :
    partsIn own stops visit ts ⊆ ts := by
  rw [partsIn]
  split
  · exact List.nil_subset ts
  · exact (reachedIn_isPrefix stops visit ts).subset

theorem joinedIn_subset {stops : Bool} {ts : List Visit} : joinedIn mode stops visit ts ⊆ ts := by
  cases mode with
  | immediate => exact (reachedIn_isPrefix stops visit ts).subset
  | deferred => exact (reachedIn_isPrefix false visit ts).subset

theorem starts_of_heeded {u : Visit} : ∀ {pl : Plan}, u ∈ pl.heeded mode visit → pl.Starts u
  | .done _, h => nomatch h
  | .andThen t next, h => by
      rw [heeded] at h
      cases List.mem_cons.mp h with
      | inl he => exact he ▸ .first
      | inr hm =>
          split at hm
          next w _ => exact .next (starts_of_heeded hm)
          next => cases hm
  | .parts own stops ts build, h => .part (partsIn_subset h)
  | .union ts refusal, h => .member ((triedIn_isPrefix visit ts).subset h)
  | .intersection stops ts build, h => .joined (joinedIn_subset h)

/-- The members of an intersection end with the misuse of one that counts. -/
theorem gatherMembers_error_iff (stops : Bool) (ts : List Visit) :
    Outcome.gatherMembers mode stops (ts.map visit) = .error e ↔
      ∃ u ∈ joinedIn mode stops visit ts, visit u = .error e := by
  cases mode with
  | immediate => exact gather_error_iff stops ts
  | deferred =>
      show Outcome.gatherAll stops (ts.map visit) = .error e ↔
        ∃ u ∈ reachedIn false visit ts, visit u = .error e
      rw [← misuse?_eq_some_iff, Outcome.gatherAll]
      cases hm : Outcome.misuse? (ts.map visit) with
      | some e' => simp
      | none =>
          have hnone : Outcome.gather stops (ts.map visit) ≠ .error e :=
            fun h => Outcome.misuse?_eq_none hm e (Outcome.mem_of_gather_error h)
          simp [hnone]

/-- The parts of a container end with the misuse of one that counts. -/
theorem gather_raised_error_iff (own : List Issue) (stops : Bool) (ts : List Visit) :
    Outcome.gather stops (Outcome.raised own ++ ts.map visit) = .error e ↔
      ∃ u ∈ partsIn own stops visit ts, visit u = .error e := by
  by_cases hown : own ≠ [] ∧ stops = true
  · obtain ⟨hne, rfl⟩ := hown
    rw [Outcome.gather_raised_stops hne]
    simp [partsIn, hne]
  · have hdescends : own ≠ [] → stops = false := by simpa using hown
    rw [Outcome.gather_raised hdescends, Outcome.map_eq_error_iff, gather_error_iff,
      partsIn_of_descends hdescends]

/-! ## Misuses of plans -/

/-- A misuse that a plan itself ends with. -/
inductive Reports : Plan → Misuse → Prop where
  | done {e : Misuse} : Reports (.done (.error e)) e
  | next {t : Visit} {next : Value → Plan} {w : Value} {e : Misuse} :
      Reports (next w) e → Reports (.andThen t next) e

/-- A misuse of a visit that a plan heeds is the misuse of the plan. -/
theorem error_of_heeded {u : Visit} (hu : visit u = .error e) :
    ∀ {pl : Plan}, u ∈ pl.heeded mode visit → pl.outcome mode visit = .error e
  | .done _, h => nomatch h
  | .andThen t next, h => by
      rw [heeded] at h
      rw [outcome]
      cases List.mem_cons.mp h with
      | inl he =>
          subst he
          rw [hu]
      | inr hm =>
          cases ht : visit t with
          | error e' =>
              rw [ht] at hm
              cases hm
          | ok o =>
              rw [ht] at hm
              cases o with
              | success w => exact error_of_heeded hu hm
              | failure is => cases hm
  | .parts own stops ts build, h =>
      Outcome.map_eq_error_iff.mpr ((gather_raised_error_iff own stops ts).mpr ⟨u, h, hu⟩)
  | .union ts refusal, h => Outcome.map_eq_error_iff.mpr ((choose_error_iff ts).mpr ⟨u, h, hu⟩)
  | .intersection stops ts build, h =>
      Outcome.map_eq_error_iff.mpr ((gatherMembers_error_iff stops ts).mpr ⟨u, h, hu⟩)

/-- A plan ends with a misuse of its own or with that of a visit that it heeds. -/
theorem reports_or_heeded :
    ∀ {pl : Plan}, pl.outcome mode visit = .error e →
      pl.Reports e ∨ ∃ u ∈ pl.heeded mode visit, visit u = .error e
  | .done o, h => by
      obtain rfl : o = .error e := h
      exact .inl .done
  | .andThen t next, h => by
      rw [outcome] at h
      rw [heeded]
      cases ht : visit t with
      | error e' =>
          rw [ht] at h
          exact .inr ⟨t, List.mem_cons_self .., ht.trans h⟩
      | ok o =>
          rw [ht] at h
          cases o with
          | success w =>
              cases reports_or_heeded h with
              | inl hr => exact .inl (.next hr)
              | inr hu =>
                  obtain ⟨u, hu, he⟩ := hu
                  exact .inr ⟨u, List.mem_cons_of_mem _ hu, he⟩
          | failure is => cases h
  | .parts own stops ts build, h =>
      .inr ((gather_raised_error_iff own stops ts).mp (Outcome.map_eq_error_iff.mp h))
  | .union ts refusal, h => .inr ((choose_error_iff ts).mp (Outcome.map_eq_error_iff.mp h))
  | .intersection stops ts build, h =>
      .inr ((gatherMembers_error_iff stops ts).mp (Outcome.map_eq_error_iff.mp h))

end Plan

/-! ## The visits that report misuses -/

namespace Visit

/-- The misuse that a visit ends with at once. -/
inductive Reports (call : Call) (t : Visit) : Misuse → Prop where
  | deferredEffect {inner : Schema} {effect : Effect} : t.schema.kind = .effects inner effect →
      effect.flavour = .deferred → call.mode = .immediate →
      Reports call t (.deferredEffect effect.name t.path)
  | missingArena {id : SchemaId} : t.schema.kind = .lazy id → call.options.arena = none →
      Reports call t (.missingArena id)
  | depthExceeded {id : SchemaId} {a : Arena} : t.schema.kind = .lazy id →
      call.options.arena = some a → t.hops = 0 → Reports call t (.depthExceeded a.maxDepth t.path)
  | undefinedId {id : SchemaId} {a : Arena} : t.schema.kind = .lazy id →
      call.options.arena = some a → t.hops ≠ 0 → a.get? id = none →
      Reports call t (.undefinedId id)

variable {call : Call} {t u : Visit} {e : Misuse}

theorem Reports.plan_eq (h : t.Reports call e) : t.plan call = .done (.error e) := by
  unfold plan Schema.plan
  cases h with
  | deferredEffect hk hf hm =>
      rw [hk]
      exact if_pos ⟨hf, hm⟩
  | missingArena hk ha =>
      rw [hk]
      simp [Schema.lazyPlan, ha]
  | depthExceeded hk ha hn =>
      rw [hk]
      simp [Schema.lazyPlan, ha, hn]
  | undefinedId hk ha hn hg =>
      obtain ⟨n, hn⟩ := Nat.exists_eq_succ_of_ne_zero hn
      rw [hk]
      simp [Schema.lazyPlan, ha, hn, hg]

theorem Reports.outcome_eq (h : t.Reports call e) : t.outcome call = .error e := by
  rw [Visit.outcome_eq, h.plan_eq, Plan.outcome]

end Visit

namespace Schema

variable {node : Schema} {call : Call} {path : Path} {v : Value} {hops : Nat} {e : Misuse}

theorem not_reports_pass {t : Visit} : ¬ (Plan.pass t).Reports e := by
  intro h
  cases h with
  | next h => cases h

theorem not_reports_containerPlan : ¬ (node.containerPlan call path v hops).Reports e := by
  intro h
  simp only [containerPlan] at h
  cases hp : node.parts? v call.options.arena with
  | none =>
      rw [hp] at h
      cases h
  | some parts =>
      rw [hp] at h
      cases h

theorem reports_of_effectPlan {inner : Schema} {effect : Effect}
    (h : (node.effectPlan call path v hops inner effect).Reports e) :
    effect.flavour = .deferred ∧ call.mode = .immediate ∧ e = .deferredEffect effect.name path := by
  simp only [effectPlan] at h
  split at h
  next hd =>
      cases h
      exact ⟨hd.1, hd.2, rfl⟩
  next =>
      cases effect with
      | preprocess flavour map => exact absurd h not_reports_pass
      | _ =>
          cases h with
          | next h => cases h

/-- A plan itself ends with a misuse only where the visit reports it. -/
theorem reports_of_plan (h : (node.plan call path v hops).Reports e) :
    Visit.Reports call ⟨hops, node, path, v⟩ e := by
  simp only [plan] at h
  split at h
  next => cases h
  next => cases h
  next => cases h
  next =>
      split at h
      next => cases h
      next => exact absurd h not_reports_pass
  next =>
      split at h
      next => cases h
      next => exact absurd h not_reports_pass
  next => exact absurd h not_reports_pass
  next => exact absurd h not_reports_pass
  next inner effect hk =>
      obtain ⟨hf, hm, rfl⟩ := reports_of_effectPlan h
      exact .deferredEffect hk hf hm
  next =>
      cases h with
      | next h => exact absurd h not_reports_pass
  next id hk =>
      simp only [lazyPlan] at h
      split at h
      next ha =>
          cases h
          exact .missingArena hk ha
      next a ha =>
          cases hops with
          | zero =>
              cases h
              exact .depthExceeded hk ha rfl
          | succ n =>
              dsimp only at h
              split at h
              next => exact absurd h not_reports_pass
              next hg =>
                  cases h
                  exact .undefinedId hk ha (Nat.succ_ne_zero n) hg
  next => exact absurd h not_reports_containerPlan

end Schema

/-! ## Chains of visits -/

namespace Visit

/-- A visit is made by the plan of another one. -/
def Makes (call : Call) (t u : Visit) : Prop := (t.plan call).Starts u

/-- The outcome of a visit rests on that of another one. -/
def Heeds (call : Call) (t u : Visit) : Prop :=
  u ∈ (t.plan call).heeded call.mode (Visit.outcome call)

/-- A chain of visits, and the number of lazy nodes that are resolved on the way. -/
inductive Nests (R : Visit → Visit → Prop) : Visit → Nat → Visit → Prop where
  | here {t : Visit} : Nests R t 0 t
  | inside {t u w : Visit} {n : Nat} :
      R t u → (∀ id, t.schema.kind ≠ .lazy id) → Nests R u n w → Nests R t n w
  | resolved {t u w : Visit} {n : Nat} {id : SchemaId} :
      R t u → t.schema.kind = .lazy id → Nests R u n w → Nests R t (n + 1) w

variable {call : Call} {t u : Visit} {e : Misuse} {n : Nat}

theorem Heeds.makes (h : t.Heeds call u) : t.Makes call u := Plan.starts_of_heeded h

theorem Nests.imp {R R' : Visit → Visit → Prop} (hR : ∀ {t u}, R t u → R' t u)
    (h : t.Nests R n u) : t.Nests R' n u := by
  induction h with
  | here => exact .here
  | inside hr hk _ ih => exact .inside (hR hr) hk ih
  | resolved hr hk _ ih => exact .resolved (hR hr) hk ih

/-- A step to another visit makes a chain one longer. -/
theorem Nests.cons {R : Visit → Visit → Prop} {w : Visit} (hr : R t u) (h : u.Nests R n w) :
    ∃ m, t.Nests R m w := by
  by_cases hk : ∃ id, t.schema.kind = .lazy id
  · obtain ⟨id, hk⟩ := hk
    exact ⟨n + 1, .resolved hr hk h⟩
  · exact ⟨n, .inside hr (fun id hid => hk ⟨id, hid⟩) h⟩

/-- What may still be resolved falls by one with every lazy node that is. -/
theorem Nests.hops_eq (h : t.Nests (Makes call) n u) : t.hops = n + u.hops := by
  induction h with
  | here => exact (Nat.zero_add _).symm
  | inside hr hk _ ih =>
      cases Schema.plan_starts hr with
      | inl hc => rw [← hc.1, ih]
      | inr hl =>
          obtain ⟨id, hid, -⟩ := hl.2
          exact absurd hid (hk id)
  | resolved hr hk _ ih =>
      cases Schema.plan_starts hr with
      | inl hc =>
          have hmem := hc.2
          rw [hk] at hmem
          cases hmem
      | inr hl => omega

/-- What holds everywhere in a schema holds everywhere in those that a chain leads to. -/
theorem Nests.everywhere {P : Schema → Prop} (h : t.Nests (Makes call) n u)
    (ht : t.schema.Everywhere call.options.arena P) : u.schema.Everywhere call.options.arena P := by
  induction h with
  | here => exact ht
  | inside hr _ _ ih => exact ih (ht.started hr)
  | resolved hr _ _ ih => exact ih (ht.started hr)

/-- A visit ends with a misuse just when a chain of visits that are heeded leads to one that
reports it. -/
theorem outcome_error_iff :
    t.outcome call = .error e ↔ ∃ n u, t.Nests (Heeds call) n u ∧ u.Reports call e := by
  constructor
  · induction t using Visit.induction call with
    | h t ih =>
        intro h
        rw [Visit.outcome_eq] at h
        cases Plan.reports_or_heeded h with
        | inl hr => exact ⟨0, t, .here, Schema.reports_of_plan hr⟩
        | inr hu =>
            obtain ⟨u, hu, he⟩ := hu
            obtain ⟨n, w, hn, hw⟩ := ih u (Plan.starts_of_heeded hu) he
            obtain ⟨m, hm⟩ := Nests.cons hu hn
            exact ⟨m, w, hm, hw⟩
  · rintro ⟨n, u, hn, hu⟩
    induction hn with
    | here => exact hu.outcome_eq
    | inside hr _ _ ih => exact (Visit.outcome_eq ..).trans (Plan.error_of_heeded (ih hu) hr)
    | resolved hr _ _ ih => exact (Visit.outcome_eq ..).trans (Plan.error_of_heeded (ih hu) hr)

end Visit

namespace Schema

/-- A misuse of a call is reported by a visit that a chain of heeded visits leads to. -/
theorem exists_reports_of_safeParse {s : Schema} {mode : Mode} {options : Options} {v : Value}
    {e : Misuse} (h : (s.safeParse mode options v).result = .error e) :
    ∃ n u, (s.rootVisit ⟨options, mode⟩ v).Nests (Visit.Heeds ⟨options, mode⟩) n u ∧
      u.Reports ⟨options, mode⟩ e := by
  cases hfound : options.cache.bind (·.find? s.id v) with
  | some r =>
      rw [safeParse, hfound] at h
      cases h
  | none =>
      have hresult := s.safeParse_result mode options v hfound
      exact Visit.outcome_error_iff.mp (hresult.symm.trans h)

end Schema

end ValueSchema

import ValueSchema.Proofs.Modes

/-!
# Misuses that only a deferred call reports

A deferred intersection that stops early at a member still counts a misuse of the members
after it, which an immediate one never runs.  So a deferred call can end with a misuse
where the immediate call gives a validation.

`Visit.Hides` tells from the immediate call alone whether it passes by such a misuse, and
`Schema.deferred_of_immediate` says that this is the only difference: the deferred call
ends with a misuse if so, and gives the same validation otherwise.
-/

namespace ValueSchema

/-! ## The visits that an immediate plan makes -/

namespace Plan

/-- The visits of steps that all have to succeed, up to the one that ends them. -/
def reachedIn (stops : Bool) (visit : Visit → Outcome) : List Visit → List Visit
  | [] => []
  | t :: ts =>
      match visit t with
      | .error _ => [t]
      | .ok (.success _) => t :: reachedIn stops visit ts
      | .ok (.failure _) => if stops then [t] else t :: reachedIn stops visit ts

/-- The visits of steps of which one has to succeed, up to the one that ends them. -/
def triedIn (visit : Visit → Outcome) : List Visit → List Visit
  | [] => []
  | t :: ts =>
      match visit t with
      | .ok (.failure _) => t :: triedIn visit ts
      | _ => [t]

/-- The visits that a plan makes in an immediate call. -/
def reached (visit : Visit → Outcome) : Plan → List Visit
  | .done _ => []
  | .andThen t next =>
      t :: (match visit t with
        | .ok (.success w) => (next w).reached visit
        | _ => [])
  | .parts own stops ts _ => if stops && !own.isEmpty then [] else reachedIn stops visit ts
  | .union ts _ => triedIn visit ts
  | .intersection stops ts _ => reachedIn stops visit ts

/-- The visits of members of an intersection that an immediate call leaves out, because a
member before them was refused. -/
def leftOut (visit : Visit → Outcome) : Plan → List Visit
  | .done _ => []
  | .andThen t next =>
      match visit t with
      | .ok (.success w) => (next w).leftOut visit
      | _ => []
  | .parts .. => []
  | .union .. => []
  | .intersection stops ts _ => ts.drop (reachedIn stops visit ts).length

variable {visit : Visit → Outcome} {u : Visit}

theorem reachedIn_isPrefix (stops : Bool) (visit : Visit → Outcome) :
    ∀ ts : List Visit, reachedIn stops visit ts <+: ts
  | [] => List.prefix_rfl
  | t :: ts => by
      have ih := reachedIn_isPrefix stops visit ts
      have hone : [t] <+: t :: ts := ⟨ts, rfl⟩
      have hmore : t :: reachedIn stops visit ts <+: t :: ts := List.cons_prefix_cons.mpr ⟨rfl, ih⟩
      rw [reachedIn]
      split
      · exact hone
      · exact hmore
      · cases stops with
        | true => exact hone
        | false => exact hmore

theorem triedIn_isPrefix (visit : Visit → Outcome) : ∀ ts : List Visit, triedIn visit ts <+: ts
  | [] => List.prefix_rfl
  | t :: ts => by
      have ih := triedIn_isPrefix visit ts
      rw [triedIn]
      split
      · exact List.cons_prefix_cons.mpr ⟨rfl, ih⟩
      · exact ⟨ts, rfl⟩

theorem starts_of_reached : ∀ {pl : Plan}, u ∈ pl.reached visit → pl.Starts u
  | .done _, h => nomatch h
  | .andThen t next, h => by
      rw [reached] at h
      cases List.mem_cons.mp h with
      | inl he => exact he ▸ .first
      | inr hm =>
          split at hm
          next w _ => exact .next (starts_of_reached hm)
          next => exact nomatch hm
  | .parts own stops ts build, h => by
      rw [reached] at h
      split at h
      next => exact nomatch h
      next => exact .part ((reachedIn_isPrefix stops visit ts).subset h)
  | .union ts refusal, h => .member ((triedIn_isPrefix visit ts).subset h)
  | .intersection stops ts build, h => .joined ((reachedIn_isPrefix stops visit ts).subset h)

theorem starts_of_leftOut : ∀ {pl : Plan}, u ∈ pl.leftOut visit → pl.Starts u
  | .done _, h => nomatch h
  | .andThen t next, h => by
      rw [leftOut] at h
      split at h
      next w _ => exact .next (starts_of_leftOut h)
      next => exact nomatch h
  | .parts .., h => nomatch h
  | .union .., h => nomatch h
  | .intersection stops ts build, h => .joined (List.mem_of_mem_drop h)

end Plan

/-! ## When a deferred plan is a misuse -/

/-- An answer that is a misuse. -/
def IsMisuse {α : Type} (x : Except Misuse α) : Prop := ∃ e, x = .error e

namespace IsMisuse

variable {α β : Type}

theorem of_error (e : Misuse) : IsMisuse (.error e : Except Misuse α) := ⟨e, rfl⟩

theorem not_ok (a : α) : ¬ IsMisuse (.ok a : Except Misuse α) := nofun

theorem map_iff (x : Except Misuse α) (f : α → β) : IsMisuse (x.map f) ↔ IsMisuse x := by
  cases x with
  | error e => exact iff_of_true (of_error e) (of_error e)
  | ok a => exact iff_of_false (not_ok _) (not_ok _)

theorem ok_of_map {x : Except Misuse α} {f : α → β} {b : β} (h : x.map f = .ok b) :
    ∃ a, x = .ok a := by
  cases x with
  | error e => exact nomatch h
  | ok a => exact ⟨a, rfl⟩

/-- What is refined by a misuse is a misuse itself. -/
theorem of_refines {a b : Except Misuse α} (ha : IsMisuse a) (h : Refines a b) : IsMisuse b := by
  cases b with
  | error e => exact .of_error e
  | ok r => exact absurd (h r rfl ▸ ha) (not_ok r)

/-- A visit that is no misuse can be left out. -/
theorem exists_cons_iff {visit : Visit → Except Misuse α} {t : Visit} (h : ¬ IsMisuse (visit t))
    (ts : List Visit) :
    (∃ u ∈ t :: ts, IsMisuse (visit u)) ↔ ∃ u ∈ ts, IsMisuse (visit u) :=
  (List.exists_mem_cons_iff (fun u => IsMisuse (visit u)) t ts).trans (or_iff_right h)

end IsMisuse

namespace Outcome

theorem mem_of_misuse? {e : Misuse} : ∀ {os : List Outcome}, misuse? os = some e → .error e ∈ os
  | .error _ :: _, h => by
      obtain rfl := Option.some.inj h
      exact List.mem_cons_self ..
  | .ok _ :: _, h => List.mem_cons_of_mem _ (mem_of_misuse? h)

theorem misuse?_eq_none : ∀ {os : List Outcome}, misuse? os = none → ∀ e, .error e ∉ os
  | [], _, _ => List.not_mem_nil
  | .error _ :: _, h, _ => nomatch h
  | .ok _ :: os, h, e => fun hm =>
      (List.mem_cons.mp hm).elim nofun (misuse?_eq_none (show misuse? os = none from h) e)

theorem error_of_map {α β : Type} {x : Except Misuse α} {f : α → β} {e : Misuse}
    (h : x.map f = .error e) : x = .error e := by
  cases x with
  | error e' => exact congrArg _ (Except.error.inj h)
  | ok a => exact nomatch h

theorem mem_of_gather_error {stops : Bool} {e : Misuse} :
    ∀ {os : List Outcome}, gather stops os = .error e → .error e ∈ os
  | .error _ :: _, h => by
      obtain rfl := Except.error.inj h
      exact List.mem_cons_self ..
  | .ok (.success _) :: _, h =>
      List.mem_cons_of_mem _ (mem_of_gather_error (error_of_map h))
  | .ok (.failure _) :: _, h => by
      cases stops with
      | true => exact nomatch h
      | false => exact List.mem_cons_of_mem _ (mem_of_gather_error (error_of_map h))

end Outcome

namespace Plan

variable {immediate deferred : Visit → Outcome}

theorem mem_reachedIn_head (stops : Bool) (visit : Visit → Outcome) (t : Visit) (ts : List Visit) :
    t ∈ reachedIn stops visit (t :: ts) := by
  rw [reachedIn]
  split
  · exact List.mem_cons_self ..
  · exact List.mem_cons_self ..
  · cases stops <;> exact List.mem_cons_self ..

theorem mem_triedIn_head (visit : Visit → Outcome) (t : Visit) (ts : List Visit) :
    t ∈ triedIn visit (t :: ts) := by
  rw [triedIn]
  split <;> exact List.mem_cons_self ..

/-- Steps that all have to succeed are a misuse in a deferred call just when one of those
is that the immediate call reaches. -/
theorem gather_isMisuse_iff (stops : Bool) :
    ∀ {ts : List Visit} {r : List Issue × List Value},
      (∀ t ∈ ts, Refines (immediate t) (deferred t)) →
      Outcome.gather stops (ts.map immediate) = .ok r →
      (IsMisuse (Outcome.gather stops (ts.map deferred)) ↔
        ∃ u ∈ reachedIn stops immediate ts, IsMisuse (deferred u))
  | [], _, _, _ => iff_of_false (IsMisuse.not_ok _) (by simp [reachedIn])
  | t :: ts, r, h, hr => by
      have ih : ∀ {r}, Outcome.gather stops (ts.map immediate) = .ok r →
          (IsMisuse (Outcome.gather stops (ts.map deferred)) ↔
            ∃ u ∈ reachedIn stops immediate ts, IsMisuse (deferred u)) :=
        fun hr => gather_isMisuse_iff stops (fun u hu => h u (List.mem_cons_of_mem _ hu)) hr
      rw [List.map_cons] at hr ⊢
      cases hd : deferred t with
      | error e =>
          exact iff_of_true (.of_error e)
            ⟨t, mem_reachedIn_head stops immediate t ts, hd ▸ .of_error e⟩
      | ok o =>
          have hi := h t (List.mem_cons_self ..) o hd
          have hnot : ¬ IsMisuse (deferred t) := hd ▸ IsMisuse.not_ok o
          rw [hi] at hr
          rw [reachedIn, hi]
          cases o with
          | success w =>
              obtain ⟨r', hr'⟩ := IsMisuse.ok_of_map hr
              exact (IsMisuse.map_iff _ _).trans
                ((ih hr').trans (IsMisuse.exists_cons_iff hnot _).symm)
          | failure is =>
              cases stops with
              | true => exact iff_of_false (IsMisuse.not_ok _) (by simpa using hnot)
              | false =>
                  obtain ⟨r', hr'⟩ := IsMisuse.ok_of_map hr
                  exact (IsMisuse.map_iff _ _).trans
                    ((ih hr').trans (IsMisuse.exists_cons_iff hnot _).symm)

/-- Steps of which one has to succeed are a misuse in a deferred call just when one of
those is that the immediate call tries. -/
theorem choose_isMisuse_iff :
    ∀ {ts : List Visit} {r : Except (List Issue) Value},
      (∀ t ∈ ts, Refines (immediate t) (deferred t)) →
      Outcome.choose (ts.map immediate) = .ok r →
      (IsMisuse (Outcome.choose (ts.map deferred)) ↔
        ∃ u ∈ triedIn immediate ts, IsMisuse (deferred u))
  | [], _, _, _ => iff_of_false (IsMisuse.not_ok _) (by simp [triedIn])
  | t :: ts, r, h, hr => by
      rw [List.map_cons] at hr ⊢
      cases hd : deferred t with
      | error e =>
          exact iff_of_true (.of_error e) ⟨t, mem_triedIn_head immediate t ts, hd ▸ .of_error e⟩
      | ok o =>
          have hi := h t (List.mem_cons_self ..) o hd
          have hnot : ¬ IsMisuse (deferred t) := hd ▸ IsMisuse.not_ok o
          rw [hi] at hr
          rw [triedIn, hi]
          cases o with
          | success w => exact iff_of_false (IsMisuse.not_ok _) (by simpa using hnot)
          | failure is =>
              obtain ⟨r', hr'⟩ := IsMisuse.ok_of_map hr
              have ih := choose_isMisuse_iff (fun u hu => h u (List.mem_cons_of_mem _ hu)) hr'
              exact (IsMisuse.map_iff _ _).trans (ih.trans (IsMisuse.exists_cons_iff hnot _).symm)

/-- Members that run together are a misuse just when one of them is. -/
theorem gatherAll_isMisuse_iff (stops : Bool) (ts : List Visit) :
    IsMisuse (Outcome.gatherAll stops (ts.map deferred)) ↔ ∃ u ∈ ts, IsMisuse (deferred u) := by
  unfold Outcome.gatherAll
  cases he : Outcome.misuse? (ts.map deferred) with
  | some e =>
      have hm := Outcome.mem_of_misuse? he
      obtain ⟨u, hu, hd⟩ := List.mem_map.mp hm
      exact iff_of_true (.of_error e) ⟨u, hu, e, hd⟩
  | none =>
      have hnone := Outcome.misuse?_eq_none he
      refine iff_of_false ?_ ?_
      · rintro ⟨e, hg⟩
        exact hnone e (Outcome.mem_of_gather_error hg)
      · rintro ⟨u, hu, e, hd⟩
        exact hnone e (List.mem_map.mpr ⟨u, hu, hd⟩)

/-- A plan is a misuse in a deferred call just when a visit is that the immediate call
makes, or one that it leaves out. -/
theorem outcome_isMisuse_iff :
    ∀ {pl : Plan} {r : Validation}, (∀ t, pl.Starts t → Refines (immediate t) (deferred t)) →
      pl.outcome .immediate immediate = .ok r →
      (IsMisuse (pl.outcome .deferred deferred) ↔
        (∃ u ∈ pl.reached immediate, IsMisuse (deferred u)) ∨
          ∃ u ∈ pl.leftOut immediate, IsMisuse (deferred u))
  | .done o, r, _, hr => by
      have hr : o = .ok r := hr
      subst hr
      simp [outcome, reached, leftOut, IsMisuse.not_ok]
  | .andThen t next, r, h, hr => by
      have ht := h t .first
      rw [outcome] at hr ⊢
      rw [reached, leftOut]
      cases hd : deferred t with
      | error e =>
          exact iff_of_true (.of_error e) (.inl ⟨t, List.mem_cons_self .., hd ▸ .of_error e⟩)
      | ok o =>
          have hi := ht o hd
          have hnot : ¬ IsMisuse (deferred t) := hd ▸ IsMisuse.not_ok o
          rw [hi] at hr ⊢
          rw [IsMisuse.exists_cons_iff hnot]
          cases o with
          | success w => exact outcome_isMisuse_iff (fun u hu => h u (.next hu)) hr
          | failure is => exact iff_of_false (IsMisuse.not_ok _) (by simp)
  | .parts own stops ts build, r, h, hr => by
      rw [outcome, conclude] at hr ⊢
      obtain ⟨r', hr'⟩ := IsMisuse.ok_of_map hr
      have hts : ∀ t ∈ ts, Refines (immediate t) (deferred t) := fun t ht => h t (.part ht)
      rw [IsMisuse.map_iff, reached, leftOut]
      by_cases hown : own ≠ [] ∧ stops = true
      · obtain ⟨hne, rfl⟩ := hown
        rw [Outcome.gather_raised_stops hne]
        exact iff_of_false (IsMisuse.not_ok _) (by simp [hne])
      · have hstops : own ≠ [] → stops = false := by simpa using hown
        rw [Outcome.gather_raised hstops] at hr' ⊢
        obtain ⟨r'', hr''⟩ := IsMisuse.ok_of_map hr'
        have hgo : ¬ (stops && !own.isEmpty) = true := by
          cases stops <;> simp_all
        rw [IsMisuse.map_iff, gather_isMisuse_iff stops hts hr'', if_neg hgo]
        simp
  | .union ts refusal, r, h, hr => by
      rw [outcome] at hr ⊢
      obtain ⟨r', hr'⟩ := IsMisuse.ok_of_map hr
      have hts : ∀ t ∈ ts, Refines (immediate t) (deferred t) := fun t ht => h t (.member ht)
      rw [IsMisuse.map_iff, choose_isMisuse_iff hts hr', reached, leftOut]
      simp
  | .intersection stops ts build, r, h, hr => by
      rw [outcome, conclude, IsMisuse.map_iff, reached, leftOut]
      show IsMisuse (Outcome.gatherAll stops (ts.map deferred)) ↔ _
      rw [gatherAll_isMisuse_iff]
      have hsplit : reachedIn stops immediate ts ++
          ts.drop (reachedIn stops immediate ts).length = ts :=
        List.prefix_iff_eq_append.mp (reachedIn_isPrefix stops immediate ts)
      conv_lhs => rw [← hsplit]
      simp only [List.mem_append, or_and_right, exists_or]

theorem not_isMisuse_of_reachedIn {visit : Visit → Outcome} {stops : Bool} {ts : List Visit}
    {r : List Issue × List Value} (h : Outcome.gather stops (ts.map visit) = .ok r) {u : Visit}
    (hu : u ∈ reachedIn stops visit ts) : ¬ IsMisuse (visit u) := by
  intro hm
  have hiff := gather_isMisuse_iff stops (fun t _ => .refl (visit t)) h
  exact IsMisuse.not_ok r (h ▸ hiff.mpr ⟨u, hu, hm⟩)

/-- When an immediate plan is no misuse, none of the visits it makes is. -/
theorem not_isMisuse_of_reached {visit : Visit → Outcome} {u : Visit} :
    ∀ {pl : Plan} {r : Validation}, pl.outcome .immediate visit = .ok r → u ∈ pl.reached visit →
      ¬ IsMisuse (visit u)
  | .done _, _, _, hu => nomatch hu
  | .andThen t next, r, hr, hu => by
      rw [outcome] at hr
      rw [reached] at hu
      cases ht : visit t with
      | error e =>
          rw [ht] at hr
          cases hr
      | ok o =>
          rw [ht] at hr hu
          cases List.mem_cons.mp hu with
          | inl he => exact he ▸ ht ▸ IsMisuse.not_ok o
          | inr hm =>
              cases o with
              | success w => exact not_isMisuse_of_reached hr hm
              | failure is => cases hm
  | .parts own stops ts build, r, hr, hu => by
      obtain ⟨r', hr'⟩ := IsMisuse.ok_of_map hr
      rw [reached] at hu
      split at hu
      next => cases hu
      next hgo =>
          have hstops : own ≠ [] → stops = false := by
            cases stops <;> simp_all
          rw [Outcome.gather_raised hstops] at hr'
          obtain ⟨r'', hr''⟩ := IsMisuse.ok_of_map hr'
          exact not_isMisuse_of_reachedIn hr'' hu
  | .union ts refusal, r, hr, hu => by
      obtain ⟨r', hr'⟩ := IsMisuse.ok_of_map hr
      intro hm
      have hiff := choose_isMisuse_iff (fun t _ => .refl (visit t)) hr'
      exact IsMisuse.not_ok r' (hr' ▸ hiff.mpr ⟨u, hu, hm⟩)
  | .intersection stops ts build, r, hr, hu => by
      obtain ⟨r', hr'⟩ := IsMisuse.ok_of_map hr
      exact not_isMisuse_of_reachedIn hr' hu

end Plan

/-! ## When a deferred call is a misuse -/

/-- The immediate outcome of a visit hides a misuse: at the visit or at one that it makes,
an intersection leaves out a member whose visit is a misuse or hides one. -/
inductive Visit.Hides (call : Call) : Visit → Prop where
  | reached {t u : Visit} :
      u ∈ (t.plan call).reached (Visit.outcome call) → Hides call u → Hides call t
  | misuse {t u : Visit} :
      u ∈ (t.plan call).leftOut (Visit.outcome call) → IsMisuse (u.outcome call) → Hides call t
  | leftOut {t u : Visit} :
      u ∈ (t.plan call).leftOut (Visit.outcome call) → Hides call u → Hides call t

/-- Without a deferred effect, a visit that is no misuse in an immediate call is one in the
deferred call just when it hides one. -/
theorem Visit.isMisuse_iff_hides (options : Options) (t : Visit) :
    t.schema.IsImmediate options.arena → ∀ o, t.outcome ⟨options, .immediate⟩ = .ok o →
      (IsMisuse (t.outcome ⟨options, .deferred⟩) ↔ t.Hides ⟨options, .immediate⟩) := by
  induction t using Visit.induction ⟨options, .immediate⟩ with
  | h t ih =>
      intro himm o ho
      have hrefines : ∀ u, (t.plan ⟨options, .immediate⟩).Starts u →
          Refines (u.outcome ⟨options, .immediate⟩) (u.outcome ⟨options, .deferred⟩) :=
        fun u hu => u.outcome_refines options (himm.started hu)
      -- A visit that is a misuse in the immediate call is one in the deferred call too.
      have hstays : ∀ u, (t.plan ⟨options, .immediate⟩).Starts u →
          (IsMisuse (u.outcome ⟨options, .deferred⟩) ↔
            IsMisuse (u.outcome ⟨options, .immediate⟩) ∨ u.Hides ⟨options, .immediate⟩) := by
        intro u hu
        cases hi : u.outcome ⟨options, .immediate⟩ with
        | error e =>
            have hm : IsMisuse (u.outcome ⟨options, .immediate⟩) := ⟨e, hi⟩
            exact iff_of_true (hm.of_refines (hrefines u hu)) (.inl (.of_error e))
        | ok o' =>
            have hiff := ih u hu (himm.started hu) o' hi
            exact hiff.trans (or_iff_right (IsMisuse.not_ok o')).symm
      have hplan : t.plan ⟨options, .deferred⟩ = t.plan ⟨options, .immediate⟩ :=
        t.schema.plan_mode options t.path t.value t.hops (himm t.schema .refl)
      rw [Visit.outcome_eq] at ho
      rw [Visit.outcome_eq, hplan]
      refine (Plan.outcome_isMisuse_iff hrefines ho).trans ⟨?_, ?_⟩
      · rintro (⟨u, hu, hm⟩ | ⟨u, hu, hm⟩)
        · cases (hstays u (Plan.starts_of_reached hu)).mp hm with
          | inl hi => exact absurd hi (Plan.not_isMisuse_of_reached ho hu)
          | inr hh => exact .reached hu hh
        · cases (hstays u (Plan.starts_of_leftOut hu)).mp hm with
          | inl hi => exact .misuse hu hi
          | inr hh => exact .leftOut hu hh
      · intro hh
        cases hh with
        | reached hu hh =>
            exact .inl ⟨_, hu, (hstays _ (Plan.starts_of_reached hu)).mpr (.inr hh)⟩
        | misuse hu hm =>
            exact .inr ⟨_, hu, (hstays _ (Plan.starts_of_leftOut hu)).mpr (.inl hm)⟩
        | leftOut hu hh =>
            exact .inr ⟨_, hu, (hstays _ (Plan.starts_of_leftOut hu)).mpr (.inr hh)⟩

namespace Schema

/-- Without deferred effects and without a cache, a deferred call gives the validation of
the immediate call, unless this one hides a misuse, and then it ends with a misuse. -/
theorem deferred_of_immediate (s : Schema) (options : Options) (v : Value)
    (hcache : options.cache = none) (himm : s.IsImmediate options.arena) (o : Validation)
    (h : (s.safeParse .immediate options v).result = .ok o) :
    (¬ (s.rootVisit ⟨options, .immediate⟩ v).Hides ⟨options, .immediate⟩ →
      (s.safeParse .deferred options v).result = .ok o) ∧
    ((s.rootVisit ⟨options, .immediate⟩ v).Hides ⟨options, .immediate⟩ →
      ∃ e, (s.safeParse .deferred options v).result = .error e) := by
  rw [safeParse_uncached s _ options v hcache] at h ⊢
  have hiff := (s.rootVisit ⟨options, .immediate⟩ v).isMisuse_iff_hides options himm o h
  refine ⟨fun hnot => ?_, fun hh => hiff.mpr hh⟩
  have hrefines := (s.rootVisit ⟨options, .immediate⟩ v).outcome_refines options himm
  cases hd : (s.rootVisit ⟨options, .immediate⟩ v).outcome ⟨options, .deferred⟩ with
  | error e => exact absurd (hiff.mp ⟨e, hd⟩) hnot
  | ok o' =>
      obtain rfl : o' = o := Except.ok.inj ((hrefines o' hd).symm.trans h)
      exact hd

/-- A text. -/
def textNode : Schema := ⟨0, .leaf .string, .empty, {}⟩

/-- A definition of an arena. -/
def definitionNode : Schema := ⟨1, .lazy ⟨0, 0⟩, .empty, {}⟩

/-- A text that also matches a definition. -/
def textAndDefinition : Schema := ⟨2, .intersection [textNode, definitionNode], .empty, {}⟩

theorem textAndDefinition_isImmediate : textAndDefinition.IsImmediate none := by
  refine .of_closed (P := fun t => t = textAndDefinition ∨ t = textNode ∨ t = definitionNode)
    (.inl rfl) ?_ ?_
  · rintro t u (rfl | rfl | rfl) (hu | ⟨id, hk, hd⟩)
    · exact .inr (by simpa [textAndDefinition, Kind.children] using hu)
    · exact nomatch hk
    · exact nomatch hu
    · exact nomatch hk
    · exact nomatch hu
    · exact nomatch hd
  · rintro t (rfl | rfl | rfl) inner effect hk
    · exact nomatch hk
    · exact nomatch hk
    · exact nomatch hk

/-- The refusal of null as a text. -/
def nullRefusal : Validation :=
  .failure ⟨⟨.invalidType .string .null, .root, "expected string, received null", .null⟩, []⟩

theorem textAndDefinition_deferred :
    (textAndDefinition.safeParse .immediate { abortEarly := some true } .null).result =
        .ok nullRefusal ∧
      (textAndDefinition.rootVisit ⟨{ abortEarly := some true }, .immediate⟩ .null).Hides
        ⟨{ abortEarly := some true }, .immediate⟩ ∧
      ∃ e, (textAndDefinition.safeParse .deferred { abortEarly := some true } .null).result =
        .error e := by
  have h : (textAndDefinition.safeParse .immediate { abortEarly := some true } .null).result =
      .ok nullRefusal := rfl
  have hhides : (textAndDefinition.rootVisit ⟨{ abortEarly := some true }, .immediate⟩ .null).Hides
      ⟨{ abortEarly := some true }, .immediate⟩ :=
    .misuse (u := ⟨0, definitionNode, .root, .null⟩) (List.mem_singleton.mpr rfl)
      ⟨.missingArena ⟨0, 0⟩, rfl⟩
  exact ⟨h, hhides,
    (deferred_of_immediate textAndDefinition _ _ rfl textAndDefinition_isImmediate _ h).2 hhides⟩

/-- Without a definition to look up, a value that is no text is refused by an immediate
call, and a deferred one reports a misuse although it stops early. -/
theorem deferred_differs_from_immediate :
    ¬ ∀ (s : Schema) (options : Options) (v : Value), options.cache = none →
      s.IsImmediate options.arena → ∀ o, (s.safeParse .immediate options v).result = .ok o →
        (s.safeParse .deferred options v).result = .ok o := by
  intro hall
  have h : (textAndDefinition.safeParse .deferred { abortEarly := some true } .null).result =
      .ok nullRefusal :=
    hall textAndDefinition { abortEarly := some true } .null rfl textAndDefinition_isImmediate _ rfl
  exact nomatch h

end Schema

end ValueSchema

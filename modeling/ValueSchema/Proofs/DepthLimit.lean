import ValueSchema.Proofs.MissingValue
import ValueSchema.Proofs.TranslatedNodes

/-!
# The limit on nested lazy nodes

A call that is not stopped by the depth of its arena gives the same result with any greater
depth (`Schema.safeParse_bounded`), with one exception.  An object also asks which of its absent
keys may be absent, and that question follows lazy nodes down to the same depth, from zero at
every object.  When it gives up, the key counts as missing, and no misuse says so
(`Visit.CutShort`).  So a greater depth can accept a value that a smaller one refuses
(`Schema.depth_shows_in_missing_keys`).

The visits of the two calls differ in how many lazy nodes may still be resolved, and in nothing
else (`Translation.deeper`).
-/

namespace ValueSchema

/-- The same definitions with another depth. -/
def Arena.bounded (a : Arena) (maxDepth : Nat) : Arena := { a with maxDepth := maxDepth }

/-- Options with another depth of the arena. -/
def Options.bounded (options : Options) (maxDepth : Nat) : Options :=
  { options with arena := options.arena.map (·.bounded maxDepth) }

@[simp] theorem Arena.maxDepth_bounded (a : Arena) (n : Nat) : (a.bounded n).maxDepth = n := rfl

@[simp] theorem Arena.get?_bounded (a : Arena) (n : Nat) (id : SchemaId) :
    (a.bounded n).get? id = a.get? id := rfl

theorem Options.arena_bounded_of_none {options : Options} (h : options.arena = none) (n : Nat) :
    (options.bounded n).arena = none := by
  rw [bounded, h]
  rfl

theorem Options.arena_bounded_of_some {options : Options} {a : Arena} (h : options.arena = some a)
    (n : Nat) : (options.bounded n).arena = some (a.bounded n) := by
  rw [bounded, h]
  rfl

/-- Visits in a call that may resolve `more` lazy nodes than another one. -/
def Translation.deeper (more : Nat) : Translation where
  hops := (more + ·)

/-- A visit of an object that lacks a key, which may be absent by the depth `m'` and not by the
depth `m`. -/
def Visit.CutShort (options : Options) (m m' : Nat) (t : Visit) : Prop :=
  ∃ shape unknown input, t.schema.kind = .object shape unknown ∧ t.value = .object input ∧
    ∃ e ∈ shape.toList, input.hasKey e.1 = false ∧
      e.2.acceptsUndefinedIn (options.bounded m).arena = false ∧
      e.2.acceptsUndefinedIn (options.bounded m').arena = true

section Deeper

variable {options : Options} {mode : Mode} {m more : Nat}

theorem Cause.mapIssues_id (cause : Cause Issue) : cause.mapIssues id = cause := by
  cases cause <;> simp [mapIssues]

theorem Translation.outcome_deeper (more : Nat) (o : Outcome) : (deeper more).outcome o = o := by
  match o with
  | .error _ => rfl
  | .ok (.success _) => rfl
  | .ok (.failure is) =>
      exact congrArg (fun l => Except.ok (Validation.failure ⟨is.head, l⟩)) (List.map_id is.tail)

/-- A greater depth changes nothing in what nodes say. -/
theorem Translation.deeper_relates (m m' : Nat) :
    (deeper more).Relates ⟨options.bounded m, mode⟩ ⟨options.bounded m', mode⟩ where
  mode := rfl
  abortEarly := rfl
  kind s := s.kind.map_id.symm
  checks s := (List.map_id s.checks.entries).symm
  settings _ := rfl
  push _ _ := rfl
  issue cause _ _ _ := by
    rw [show (deeper more).issue = id from rfl, cause.mapIssues_id]
    rfl
  ownIssue cause _ _ _ := by
    rw [show (deeper more).issue = id from rfl, cause.mapIssues_id]
    rfl
  deferredEffect _ _ := rfl

/-- With a greater depth no fewer keys may be absent. -/
theorem Schema.acceptsUndefinedIn_bounded {m' : Nat} (hm : m ≤ m') {s : Schema}
    (h : s.acceptsUndefinedIn (options.bounded m).arena = true) :
    s.acceptsUndefinedIn (options.bounded m').arena = true := by
  cases ha : options.arena with
  | none =>
      rw [Options.arena_bounded_of_none ha] at h ⊢
      exact h
  | some a =>
      rw [Options.arena_bounded_of_some ha] at h ⊢
      have hadmits := acceptsUndefinedWithin_iff.mp h
      have hmore : s.AdmitsMissing (some (a.bounded m)) False m' :=
        hadmits.mono hm fun _ _ _ _ hjoins => hjoins
      -- The two arenas have the same definitions.
      refine acceptsUndefinedWithin_iff.mpr
        ((admitsMissing_mapped (f := fun t => t) ?_ ?_).mp hmore)
      · exact fun t => t.kind.map_id.symm
      · exact fun id => (congrFun Option.map_id _).symm

/-- A visit that is not stopped by the depth, and that rests on no absence that is decided by
it. -/
structure Visit.Within (options : Options) (mode : Mode) (m m' : Nat) (t : Visit) : Prop where
  finishes : ∀ n p, t.outcome ⟨options.bounded m, mode⟩ ≠ .error (.depthExceeded n p)
  decided : ∀ n u, t.Nests (Visit.Heeds ⟨options.bounded m, mode⟩) n u → ¬ u.CutShort options m m'

theorem Visit.Within.of_heeds {m' : Nat} {t u : Visit} (h : t.Within options mode m m')
    (hu : t.Heeds ⟨options.bounded m, mode⟩ u) : u.Within options mode m m' where
  finishes n p he := by
    refine h.finishes n p ?_
    rw [Visit.outcome_eq]
    exact Plan.error_of_heeded he hu
  decided n w hw := by
    obtain ⟨k, hk⟩ := Visit.Nests.cons hu hw
    exact h.decided k w hk

theorem Visit.Within.reads {m' : Nat} (hm : more + m = m') {t : Visit}
    (h : t.Within options mode m m') :
    (Translation.deeper more).Reads ⟨options.bounded m, mode⟩ ⟨options.bounded m', mode⟩ t where
  absence shape unknown input hk hv e he hkey := by
    cases hacc : e.2.acceptsUndefinedIn (options.bounded m).arena with
    | true => exact Schema.acceptsUndefinedIn_bounded (by omega) hacc
    | false =>
        refine Bool.eq_false_iff.mpr fun hacc' => ?_
        exact h.decided 0 t .here ⟨shape, unknown, input, hk, hv, e, he, hkey, hacc, hacc'⟩
  lazy id hk := by
    obtain ⟨hops, node, path, v⟩ := t
    have hfinishes := h.finishes m path
    show Plan.Translates _ (Schema.lazyPlan ⟨options.bounded m, mode⟩ path v hops id)
      (Schema.lazyPlan ⟨options.bounded m', mode⟩ path v (more + hops) id)
    cases ha : options.arena with
    | none =>
        simp only [Schema.lazyPlan, Options.arena_bounded_of_none ha]
        exact .misuse rfl
    | some a =>
        have hbounded := Options.arena_bounded_of_some ha
        cases hops with
        | zero =>
            have hreports : Visit.Reports ⟨options.bounded m, mode⟩ ⟨0, node, path, v⟩
                (.depthExceeded (a.bounded m).maxDepth path) := .depthExceeded hk (hbounded m) rfl
            exact absurd hreports.outcome_eq hfinishes
        | succ hops =>
            simp only [Schema.lazyPlan, hbounded, Arena.get?_bounded]
            cases a.get? id with
            | none => exact .misuse rfl
            | some s => exact .pass rfl

/-- A visit that is not stopped by the depth has the same outcome with a greater one. -/
theorem Visit.outcome_deeper {m' : Nat} (hm : more + m = m') {t : Visit}
    (h : t.Within options mode m m') :
    ((Translation.deeper more).visit t).outcome ⟨options.bounded m', mode⟩ =
      t.outcome ⟨options.bounded m, mode⟩ := by
  rw [← Translation.outcome_deeper more (t.outcome ⟨options.bounded m, mode⟩)]
  exact Visit.outcome_translated (Translation.deeper_relates m m') (fun _ hu => hu.reads hm)
    (fun _ _ hu hw => hu.of_heeds hw) h

end Deeper

namespace Schema

/-- A call that is not stopped by the depth of the arena has the same result with a greater
depth, when no object that counts lacks a key which may be absent by the greater depth only. -/
theorem safeParse_bounded (s : Schema) (mode : Mode) (options : Options) (v : Value) {m m' : Nat}
    (hm : m ≤ m')
    (hfinishes : ∀ n p,
      (s.safeParse mode (options.bounded m) v).result ≠ .error (.depthExceeded n p))
    (hdecided : ∀ n u,
      (s.rootVisit ⟨options.bounded m, mode⟩ v).Nests (Visit.Heeds ⟨options.bounded m, mode⟩) n u →
        ¬ u.CutShort options m m') :
    (s.safeParse mode (options.bounded m') v).result =
      (s.safeParse mode (options.bounded m) v).result := by
  cases ha : options.arena with
  | none =>
      have hsame : options.bounded m' = options.bounded m := by
        rw [Options.bounded, Options.bounded, ha]
        rfl
      rw [hsame]
  | some a =>
      cases hfound : options.cache.bind (·.find? s.id v) with
      | some r =>
          -- Both calls find the value in the cache.
          have hhit (n : Nat) : (s.safeParse mode (options.bounded n) v).result = .ok r := by
            rw [safeParse, show (options.bounded n).cache = options.cache from rfl, hfound]
          rw [hhit, hhit]
      | none =>
          have hfresh (n : Nat) := s.safeParse_result mode (options.bounded n) v hfound
          have hhops (n : Nat) : hopsOf ⟨options.bounded n, mode⟩ = n := by
            rw [hopsOf, Options.arena_bounded_of_some ha]
            rfl
          have hroot : s.rootVisit ⟨options.bounded m', mode⟩ v =
              (Translation.deeper (m' - m)).visit (s.rootVisit ⟨options.bounded m, mode⟩ v) := by
            have hmore : m' - m + m = m' := Nat.sub_add_cancel hm
            rw [rootVisit, rootVisit, hhops, hhops]
            exact congrArg (Visit.mk · s .root v) hmore.symm
          rw [hfresh] at hfinishes
          rw [hfresh, hfresh, hroot]
          exact Visit.outcome_deeper (Nat.sub_add_cancel hm) ⟨hfinishes, hdecided⟩

/-- A reference to the next link of a chain. -/
def nextNode : Schema := ⟨0, .lazy ⟨0, 0⟩, .empty, {}⟩

/-- The next link, if there is one. -/
def restNode : Schema := ⟨1, .optional nextNode, .empty, {}⟩

/-- A link of a chain. -/
def linkNode : Schema := ⟨2, .object ⟨[("next", restNode)]⟩ .strip, .empty, {}⟩

/-- Options with the definition of links. -/
def linkOptions : Options := { arena := some { id := 0, slots := [⟨"Link", some linkNode⟩] } }

/-- A chain of two links. -/
def twoLinks : Value := .object ⟨[("next", .object .empty)]⟩

/-- The key of a link may always be absent. -/
theorem linkNode_everywhere :
    linkNode.Everywhere (linkOptions.bounded 1).arena fun t =>
      ∀ shape unknown, t.kind = .object shape unknown →
        ∀ e ∈ shape.toList, e.2.acceptsUndefinedIn (linkOptions.bounded 1).arena = true := by
  refine .of_closed (Q := fun t => t = linkNode ∨ t = restNode ∨ t = nextNode) (.inl rfl) ?_ ?_
  · rintro t u (rfl | rfl | rfl) (hu | ⟨id, hk, hd⟩)
    · exact .inr (.inl (by simpa [linkNode, Kind.children, Entries.values] using hu))
    · cases hk
    · exact .inr (.inr (by simpa [restNode, Kind.children] using hu))
    · cases hk
    · cases hu
    · cases hk
      exact .inl (Option.some.inj hd).symm
  · rintro t (rfl | rfl | rfl) shape unknown hk e he
    · cases hk
      obtain rfl : e = ("next", restNode) := by simpa using he
      rfl
    · cases hk
    · cases hk

theorem linkNode_bounded :
    (linkNode.safeParse .immediate (linkOptions.bounded 1) twoLinks).result =
        .ok (.success twoLinks) ∧
      (linkNode.safeParse .immediate (linkOptions.bounded 7) twoLinks).result =
        .ok (.success twoLinks) := by
  have hone : (linkNode.safeParse .immediate (linkOptions.bounded 1) twoLinks).result =
      .ok (.success twoLinks) := rfl
  refine ⟨hone, (safeParse_bounded linkNode _ _ _ (by decide) ?_ ?_).trans hone⟩
  · intro n p hp
    cases hone.symm.trans hp
  · rintro n u hu ⟨shape, unknown, input, hk, -, e, he, -, hacc, -⟩
    have heverywhere := (hu.imp Visit.Heeds.makes).everywhere linkNode_everywhere
    cases hacc.symm.trans (heverywhere.here shape unknown hk e he)

/-! ## A depth that shows otherwise -/

/-- A text that may be missing. -/
def pseudonymNode : Schema := ⟨1, .optional ⟨0, .leaf .string, .empty, {}⟩, .empty, {}⟩

/-- Another name for it. -/
def aliasNode : Schema := ⟨2, .lazy ⟨0, 0⟩, .empty, {}⟩

/-- An object with a text that may be missing, which it finds under the second name. -/
def authorNode : Schema :=
  ⟨4, .object ⟨[("alias", ⟨3, .lazy ⟨0, 1⟩, .empty, {}⟩)]⟩ .strip, .empty, {}⟩

/-- Options with the definitions of both names. -/
def authorOptions : Options :=
  { arena := some
      { id := 0, slots := [⟨"Pseudonym", some pseudonymNode⟩, ⟨"Alias", some aliasNode⟩] } }

/-- With too little depth a key that may be absent is reported as missing, and the depth is not
mentioned. -/
theorem depth_shows_in_missing_keys :
    ¬ ∀ (s : Schema) (mode : Mode) (options : Options) (v : Value) (m m' : Nat), m ≤ m' →
      (∀ n p, (s.safeParse mode (options.bounded m) v).result ≠ .error (.depthExceeded n p)) →
      (s.safeParse mode (options.bounded m') v).result =
        (s.safeParse mode (options.bounded m) v).result := by
  intro hall
  have hshort : ∃ is, (authorNode.safeParse .immediate (authorOptions.bounded 1)
      (.object .empty)).result = .ok (.failure is) := ⟨_, rfl⟩
  have hlong : (authorNode.safeParse .immediate (authorOptions.bounded 2)
      (.object .empty)).result = .ok (.success (.object .empty)) := rfl
  obtain ⟨is, hshort⟩ := hshort
  have hfinishes (n : Nat) (p : Path) : (authorNode.safeParse .immediate (authorOptions.bounded 1)
      (.object .empty)).result ≠ .error (.depthExceeded n p) := by
    rw [hshort]
    intro hp
    cases hp
  have hsame := hall authorNode .immediate authorOptions (.object .empty) 1 2 (by decide) hfinishes
  cases hlong.symm.trans (hsame.trans hshort)

end Schema

end ValueSchema

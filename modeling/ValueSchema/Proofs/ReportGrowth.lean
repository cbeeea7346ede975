import ValueSchema.Proofs.StepRules

/-!
# How reports grow

A call records in three ways: it raises an issue at the current place, it attaches the report of
a step that ran on its own, and it discards such a report.  `Report.Grown` says that a report has
become another one in these ways.  What is attached or discarded has itself grown from an empty
report, at the same place or one segment further.

This is a judgement on steps (`Parser.growth`), so every run lets the report of its place grow
(`Schema.grown_runWithin`).
-/

namespace ValueSchema

/-- A report becomes another one while a call records at its place. -/
inductive Report.Grown (call : Call) : Report → Report → Prop where
  /-- Nothing is recorded. -/
  | refl (r : Report) : Grown call r r
  /-- An issue is raised at last. -/
  | raise {r s : Report} (h : Grown call r s) (cause : Cause Issue) (own : Option String)
      (data : Value) : Grown call r (s.raise (call.issue cause s.path own data))
  /-- A report is attached at last. -/
  | attach {r s below : Report} {there : Path} (h : Grown call r s) (hthere : s.path.Leads there)
      (hbelow : Grown call { path := there } below) : Grown call r (s.attach below)
  /-- A report is discarded at last. -/
  | discard {r s below : Report} {there : Path} (h : Grown call r s) (hthere : s.path.Leads there)
      (hbelow : Grown call { path := there } below) : Grown call r (s.noteMark below)

namespace Report.Grown

variable {call : Call} {r s u : Report}

/-- A report stays at its place. -/
theorem path_eq (h : Grown call r s) : s.path = r.path := by
  induction h with
  | refl => rfl
  | raise _ _ _ _ ih => exact ih
  | attach _ _ _ ih _ => exact ih
  | discard _ _ _ ih _ => exact ih

theorem trans (hr : Grown call r s) (hs : Grown call s u) : Grown call r u := by
  induction hs with
  | refl => exact hr
  | raise _ cause own data ih => exact (ih hr).raise cause own data
  | attach _ hthere hbelow ih _ => exact (ih hr).attach hthere hbelow
  | discard _ hthere hbelow ih _ => exact (ih hr).discard hthere hbelow

end Report.Grown

namespace Parser

open Report

/-- A step lets the report of its place grow. -/
def growth (call : Call) : Judgement call where
  At here x post := ∀ p, p.report.path = here →
    p.report.Grown call (x p).2.report ∧ ∀ a, (x p).1 = .ok a → post a
  Made here r := Grown call { path := here } r
  of_pure ha p _ := ⟨.refl _, fun _ h => Except.ok.inj h ▸ ha⟩
  of_misuse _ _ _ p _ := ⟨.refl _, nofun⟩
  of_bind := by
    intro α β here x f mid post hx hf p hp
    obtain ⟨hgrown, hmid⟩ := hx p hp
    simp only [bind]
    revert hgrown hmid
    rcases x p with ⟨e | a, q⟩ <;> intro hgrown hmid
    · exact ⟨hgrown, nofun⟩
    · obtain ⟨hnext, hpost⟩ := hf a (hmid a rfl) q (hgrown.path_eq.trans hp)
      exact ⟨hgrown.trans hnext, hpost⟩
  of_path _ p hp := ⟨.refl _, fun _ h => Except.ok.inj h ▸ hp⟩
  of_isInvalid _ p _ := ⟨.refl _, fun _ _ => trivial⟩
  of_countCall _ p _ := ⟨.refl _, fun _ _ => trivial⟩
  of_raise _ cause own data p _ := ⟨(Grown.refl _).raise cause own data, fun _ _ => trivial⟩
  of_attach hleads hmade p hp := ⟨(Grown.refl _).attach (hp ▸ hleads) hmade, fun _ _ => trivial⟩
  of_discard hleads hmade p hp := ⟨(Grown.refl _).discard (hp ▸ hleads) hmade, fun _ _ => trivial⟩
  of_isolated := by
    intro α here there x hx p _
    refine ⟨.refl _, fun r h => ?_⟩
    cases h
    exact (hx { report := { path := there }, calls := p.calls } rfl).1

end Parser

/-- Every run lets the report of its place grow. -/
theorem Schema.grown_runWithin (call : Call) (hops : Nat) (s : Schema) (v : Value) (p : Progress) :
    p.report.Grown call (s.runWithin call hops v p).2.report :=
  ((Parser.growth call).holds_runWithin hops s v p.report.path p rfl).1

end ValueSchema

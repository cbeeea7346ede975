import Mathlib.Algebra.GroupWithZero.Nat
import ValueSchema.Proofs.ReportGrowth

/-!
# Calls of the user's functions

A step counts the functions of the user's that it calls.  A step is *uniform* when the count
before it shows in nothing but the count after it, and when it looks at nothing in the report of
its place but the path and the mark (`Parser.Uniform`).  All steps of nodes are
(`Schema.uniform_runWithin`).

So a run has a count of its own (`Visit.calls`).  It adds this count to the one before, on every
report of its place that is not marked (`Visit.calls_add`), and when it is isolated
(`Visit.isolated_run`).
-/

namespace ValueSchema

/-! ## Uniform steps -/

/-- A relation of reports that look the same to a step, and that stay related when the same is
done to both. -/
structure Report.Stable (E : Report → Report → Prop) : Prop where
  path : ∀ {r s}, E r s → r.path = s.path
  isInvalid : ∀ {r s}, E r s → r.isInvalid = s.isInvalid
  raise : ∀ {r s} (i : Issue), E r s → E (r.raise i) (s.raise i)
  attach : ∀ {r s} (below : Report), E r s → E (r.attach below) (s.attach below)
  noteMark : ∀ {r s} (below : Report), E r s → E (r.noteMark below) (s.noteMark below)

theorem Report.stable_eq : Stable (· = ·) where
  path h := h ▸ rfl
  isInvalid h := h ▸ rfl
  raise _ h := h ▸ rfl
  attach _ h := h ▸ rfl
  noteMark _ h := h ▸ rfl

/-- Two reports of one place that are both marked invalid or both not. -/
structure Report.MarkedAlike (r s : Report) : Prop where
  path : r.path = s.path
  isInvalid : r.isInvalid = s.isInvalid

theorem Report.stable_markedAlike : Stable MarkedAlike where
  path h := h.path
  isInvalid h := h.isInvalid
  raise _ h := ⟨h.path, rfl⟩
  attach below h := ⟨h.path, by rw [isInvalid_attach, isInvalid_attach, h.isInvalid]⟩
  noteMark below h := ⟨h.path, by rw [isInvalid_noteMark, isInvalid_noteMark, h.isInvalid]⟩

/-- Two states of a call with related reports, after `n` calls more in the second one. -/
structure Progress.Shifted (E : Report → Report → Prop) (n : Nat) (p q : Progress) : Prop where
  report : E p.report q.report
  calls : q.calls = p.calls + n

namespace Parser

variable {α β : Type}

/-- At a place, a step does the same in two states that differ in the number of calls before. -/
def UniformAt (here : Path) (x : Parser α) : Prop :=
  ∀ E, Report.Stable E → ∀ (n : Nat) (p q : Progress), p.report.path = here → p.Shifted E n q →
    (x p).1 = (x q).1 ∧ (x p).2.Shifted E n (x q).2

/-- A step does the same in two states that differ in the number of calls before. -/
def Uniform (x : Parser α) : Prop := ∀ here, x.UniformAt here

theorem uniformAt_bind {call : Call} {here : Path} {x : Parser α} {f : α → Parser β}
    {mid : α → Prop} (hgrowth : (growth call).At here x mid) (hx : x.UniformAt here)
    (hf : ∀ a, mid a → (f a).UniformAt here) : (x >>= f).UniformAt here := by
  intro E hE n p q hp h
  obtain ⟨hresult, hshifted⟩ := hx E hE n p q hp h
  obtain ⟨hgrown, hmid⟩ := hgrowth p hp
  simp only [bind]
  revert hresult hshifted hgrown hmid
  rcases x p with ⟨e | a, p'⟩ <;> rcases x q with ⟨e' | a', q'⟩ <;>
    intro hresult hshifted hgrown hmid
  · obtain rfl : e = e' := Except.error.inj hresult
    exact ⟨rfl, hshifted⟩
  · cases hresult
  · cases hresult
  · obtain rfl : a = a' := Except.ok.inj hresult
    exact hf a (hmid a rfl) E hE n p' q' (hgrown.path_eq.trans hp) hshifted

theorem uniformAt_raise (here : Path) (call : Call) (cause : Cause Issue) (own : Option String)
    (data : Value) : (raise call cause own data).UniformAt here := by
  intro E hE n p q _ h
  refine ⟨rfl, ?_, h.calls⟩
  show E (p.report.raise (call.issue cause p.report.path own data))
    (q.report.raise (call.issue cause q.report.path own data))
  rw [hE.path h.report]
  exact hE.raise _ h.report

theorem uniformAt_isolated (here : Path) {there : Path} {x : Parser α} (hx : x.UniformAt there) :
    (isolated there x).UniformAt here := by
  intro E hE n p q _ h
  have hstart : Progress.Shifted (· = ·) n { report := { path := there }, calls := p.calls }
      { report := { path := there }, calls := q.calls } := ⟨rfl, h.calls⟩
  obtain ⟨hresult, hshifted⟩ := hx _ Report.stable_eq n _ _ rfl hstart
  exact ⟨congrArg Except.ok (Prod.ext hresult hshifted.report), h.report, hshifted.calls⟩

/-- A step is uniform.  It also lets the report of its place grow, so that it stays there. -/
def uniformity (call : Call) : Judgement call where
  At here x post := (growth call).At here x post ∧ x.UniformAt here
  Made here r := (growth call).Made here r
  of_pure ha := ⟨(growth call).of_pure ha, fun _ _ _ _ _ _ h => ⟨rfl, h⟩⟩
  of_misuse here e post := ⟨(growth call).of_misuse here e post, fun _ _ _ _ _ _ h => ⟨rfl, h⟩⟩
  of_bind hx hf :=
    ⟨(growth call).of_bind hx.1 fun a ha => (hf a ha).1,
      uniformAt_bind hx.1 hx.2 fun a ha => (hf a ha).2⟩
  of_path here :=
    ⟨(growth call).of_path here,
      fun _ hE _ _ _ _ h => ⟨congrArg Except.ok (hE.path h.report), h⟩⟩
  of_isInvalid here :=
    ⟨(growth call).of_isInvalid here,
      fun _ hE _ _ _ _ h => ⟨congrArg Except.ok (hE.isInvalid h.report), h⟩⟩
  of_countCall here := by
    refine ⟨(growth call).of_countCall here, fun E _ n p q _ h => ⟨rfl, h.report, ?_⟩⟩
    show q.calls + 1 = p.calls + 1 + n
    rw [h.calls, Nat.add_right_comm]
  of_raise here cause own data :=
    ⟨(growth call).of_raise here cause own data, uniformAt_raise here call cause own data⟩
  of_attach hleads hmade :=
    ⟨(growth call).of_attach hleads hmade,
      fun _ hE _ _ _ _ h => ⟨rfl, hE.attach _ h.report, h.calls⟩⟩
  of_discard hleads hmade :=
    ⟨(growth call).of_discard hleads hmade,
      fun _ hE _ _ _ _ h => ⟨rfl, hE.noteMark _ h.report, h.calls⟩⟩
  of_isolated here _ _ hx := ⟨(growth call).of_isolated here hx.1, uniformAt_isolated here hx.2⟩

end Parser

open ValueSchema.Parser

/-- Every run is uniform. -/
theorem Schema.uniform_runWithin (call : Call) (hops : Nat) (s : Schema) (v : Value) :
    (s.runWithin call hops v).Uniform :=
  fun here => ((uniformity call).holds_runWithin hops s v here).2

/-! ## The calls of a visit -/

namespace Visit

variable {call : Call}

/-- The run of a visit, on a report of its own. -/
def run (call : Call) (t : Visit) : Except Misuse (Option Value) × Progress :=
  t.schema.runWithin call t.hops t.value { report := { path := t.path } }

/-- How many functions of the user's a visit calls. -/
def calls (call : Call) (t : Visit) : Nat := (t.run call).2.calls

/-- A visit adds its calls to those before, wherever nothing is refused yet. -/
theorem calls_add (t : Visit) {p : Progress} (hpath : p.report.path = t.path)
    (hvalid : p.report.isInvalid = false) :
    (t.schema.runWithin call t.hops t.value p).2.calls = p.calls + t.calls call := by
  have hstart : Progress.Shifted Report.MarkedAlike p.calls { report := { path := t.path } } p :=
    ⟨⟨hpath.symm, hvalid.symm⟩, (Nat.zero_add _).symm⟩
  obtain ⟨-, hshifted⟩ := Schema.uniform_runWithin call t.hops t.schema t.value t.path _
    Report.stable_markedAlike _ _ _ rfl hstart
  exact hshifted.calls.trans (Nat.add_comm ..)

/-- A visit that is isolated adds its calls to those before, and does as it does on its own. -/
theorem isolated_run (t : Visit) (p : Progress) :
    isolated t.path (t.schema.runWithin call t.hops t.value) p =
      (.ok ((t.run call).1, (t.run call).2.report),
        { p with calls := p.calls + t.calls call }) := by
  have hstart : Progress.Shifted (· = ·) p.calls { report := { path := t.path } }
      { report := { path := t.path }, calls := p.calls } := ⟨rfl, (Nat.zero_add _).symm⟩
  obtain ⟨hresult, hshifted⟩ :=
    Schema.uniform_runWithin call t.hops t.schema t.value t.path _ Report.stable_eq _ _ _ rfl hstart
  have hcalls := hshifted.calls.trans (Nat.add_comm ..)
  exact Prod.ext (congrArg Except.ok (Prod.ext hresult.symm hshifted.report.symm))
    (congrArg (fun n => ({ p with calls := n } : Progress)) hcalls)

end Visit

/-- A call whose cache does not know the value calls what its visit does. -/
theorem Schema.safeParse_calls {s : Schema} {mode : Mode} {options : Options} {v : Value}
    (h : options.cache.bind (·.find? s.id v) = none) :
    (s.safeParse mode options v).calls =
      (s.rootVisit ⟨options, mode⟩ v).calls ⟨options, mode⟩ := by
  rw [safeParse, h]
  rfl

/-! ## Steps without calls -/

namespace Parser

variable {α β : Type}

/-- A step that calls no function of the user's. -/
def Silent (x : Parser α) : Prop := ∀ p, (x p).2.calls = p.calls

theorem silent_pure (a : α) : (pure a : Parser α).Silent := fun _ => rfl

theorem silent_bind {x : Parser α} {f : α → Parser β} (hx : x.Silent) (hf : ∀ a, (f a).Silent) :
    (x >>= f).Silent := by
  intro p
  have hp := hx p
  simp only [bind]
  revert hp
  rcases x p with ⟨e | a, q⟩ <;> intro hp
  · exact hp
  · exact (hf a q).trans hp

theorem silent_ofExcept : ∀ r : Except Misuse α, (ofExcept r).Silent
  | .ok _ => fun _ => rfl
  | .error _ => fun _ => rfl

/-- Only what a step does, and not what it answers, shows in the count. -/
theorem bind_pure_calls (x : Parser α) (f : α → β) (p : Progress) :
    ((x >>= fun a => pure (f a)) p).2.calls = (x p).2.calls := by
  simp only [bind]
  rcases x p with ⟨e | a, q⟩ <;> rfl

theorem settle_silent (stops : Bool) :
    ∀ (failed : Bool) (rs : List (Except Misuse (Option Value) × Report)),
      (settle stops failed rs).Silent
  | _, [] => silent_pure _
  | failed, (result, report) :: rs => by
      rw [settle]
      split
      · exact silent_bind (fun _ => rfl) fun _ =>
          silent_bind (settle_silent stops _ rs) fun _ => silent_pure _
      · exact silent_bind (fun _ => rfl) fun _ => silent_bind (silent_ofExcept _) fun _ =>
          silent_bind (settle_silent stops _ rs) fun _ => silent_pure _

variable {call : Call} {hops : Nat} {here : Path}

/-- What the parts of a value call, each parsed once. -/
def partCalls (call : Call) (hops : Nat) (here : Path) (parts : List Part) : Nat :=
  (parts.map fun t => (t.visit hops here).calls call).sum

end Parser

end ValueSchema

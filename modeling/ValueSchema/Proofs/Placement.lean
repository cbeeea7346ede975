import ValueSchema.Proofs.TranslatedNodes

/-!
# Visits at other places

`Visit.outcome_under` says that a visit at a deeper place has the same outcome as before,
with the way to that place in front of every path: in the issues, in the issues that a
failed union carries, and in misuses.  The only thing that could tell the places apart is
a message that the caller takes from a path, so the caller's sources of messages have to
ignore paths (`Resolvers.IgnorePaths`).

A call says the same at both places up to this translation of paths (`Path.placing`).
-/

namespace ValueSchema

/-! ## Paths in front of paths -/

/-- A path below another one. -/
def Path.under (pre p : Path) : Path := ⟨pre.segments ++ p.segments⟩

theorem Path.under_push (pre p : Path) (s : Segment) :
    (pre.under p).push s = pre.under (p.push s) := by
  simp [under, push]

mutual

/-- An issue with a path in front of its paths. -/
def Issue.under (pre : Path) : Issue → Issue
  | ⟨cause, path, message, data⟩ =>
      let cause' := match cause with
        | .invalidUnion issues => .invalidUnion (Issue.underAll pre issues)
        | c => c
      ⟨cause', pre.under path, message, data⟩

/-- Issues with a path in front of their paths. -/
def Issue.underAll (pre : Path) : List Issue → List Issue
  | [] => []
  | i :: is => Issue.under pre i :: Issue.underAll pre is

end

/-- A cause with a path in front of the paths of the issues that it carries. -/
def Cause.under (pre : Path) : Cause Issue → Cause Issue
  | .invalidUnion issues => .invalidUnion (issues.map (Issue.under pre))
  | c => c

theorem Issue.underAll_eq_map (pre : Path) (is : List Issue) :
    Issue.underAll pre is = is.map (Issue.under pre) := by
  induction is with
  | nil => rfl
  | cons i is ih => rw [underAll, ih, List.map_cons]

theorem Issue.under_eq (pre : Path) (cause : Cause Issue) (path : Path) (message : String)
    (data : Value) :
    Issue.under pre ⟨cause, path, message, data⟩ =
      ⟨cause.under pre, pre.under path, message, data⟩ := by
  cases cause with
  | invalidUnion issues =>
      show Issue.mk (.invalidUnion (Issue.underAll pre issues)) _ _ _ = _
      rw [underAll_eq_map]
      rfl
  | _ => rfl

theorem Cause.message_under (pre : Path) (c : Cause Issue) :
    (c.under pre).message = c.message := by
  cases c <;> rfl

/-- A misuse with a path in front of its path. -/
def Misuse.under (pre : Path) : Misuse → Misuse
  | .deferredEffect effect path => .deferredEffect effect (pre.under path)
  | .depthExceeded maxDepth path => .depthExceeded maxDepth (pre.under path)
  | e => e

/-- A validation with a path in front of the paths of its issues. -/
def Validation.under (pre : Path) : Validation → Validation
  | .success w => .success w
  | .failure is => .failure ⟨is.head.under pre, is.tail.map (Issue.under pre)⟩

/-- A visit at a deeper place. -/
def Visit.under (pre : Path) (t : Visit) : Visit := { t with path := pre.under t.path }

/-! ## Outcomes at a deeper place -/

namespace Outcome

/-- An answer with a path in front of its path if it is a misuse, and changed otherwise. -/
def moved {α : Type} (pre : Path) (f : α → α) : Except Misuse α → Except Misuse α
  | .ok a => .ok (f a)
  | .error e => .error (e.under pre)

/-- An outcome with a path in front of its paths. -/
def under (pre : Path) (o : Outcome) : Outcome := moved pre (Validation.under pre) o

end Outcome

/-! ## Nodes at a deeper place -/

/-- No source of messages looks at a path. -/
def Resolvers.IgnorePaths (r : Resolvers) : Prop :=
  ∀ m ∈ r.first.toList ++ r.fallback.toList, ∀ pre i, m (Issue.under pre i) = m i

/-- The issue of a cause at a deeper place. -/
theorem Call.issue_under {call : Call} (h : call.options.messages.IgnorePaths) (pre path : Path)
    (cause : Cause Issue) (own : Option String) (data : Value) :
    call.issue (cause.under pre) (pre.under path) own data =
      (call.issue cause path own data).under pre := by
  have hbind : ∀ m : Option MessageMap, (∀ f ∈ m.toList, ∀ pre i, f (Issue.under pre i) = f i) →
      m.bind (· ⟨cause.under pre, pre.under path, cause.message, data⟩) =
        m.bind (· ⟨cause, path, cause.message, data⟩) := by
    intro m hm
    cases m with
    | none => rfl
    | some f =>
        have hf := hm f (List.mem_singleton.mpr rfl) pre ⟨cause, path, cause.message, data⟩
        rwa [Issue.under_eq] at hf
  unfold Call.issue Resolvers.resolve
  dsimp only
  rw [Issue.under_eq, Cause.message_under,
    hbind _ fun f hf => h f (List.mem_append_left _ hf),
    hbind _ fun f hf => h f (List.mem_append_right _ hf)]

/-- What is said at a deeper place, in terms of what is said at a place. -/
def Path.placing (pre : Path) : Translation where
  path := pre.under
  issue := Issue.under pre
  misuse := Misuse.under pre

theorem Cause.under_eq_mapIssues (pre : Path) (cause : Cause Issue) :
    cause.mapIssues (Issue.under pre) = cause.under pre := by
  cases cause <;> rfl

theorem Path.placing_relates (pre : Path) {call : Call}
    (h : call.options.messages.IgnorePaths) : pre.placing.Relates call call := by
  have hissue (cause : Cause Issue) (path : Path) (own : Option String) (data : Value) :
      call.issue (cause.mapIssues (Issue.under pre)) (pre.under path) own data =
        (call.issue cause path own data).under pre := by
    rw [cause.under_eq_mapIssues]
    exact Call.issue_under h pre path cause own data
  exact {
    mode := rfl
    abortEarly := rfl
    kind := fun s => s.kind.map_id.symm
    checks := fun s => (List.map_id s.checks.entries).symm
    settings := fun _ => rfl
    push := pre.under_push
    issue := hissue
    ownIssue := hissue
    deferredEffect := fun _ _ => rfl }

theorem Path.placing_resolves (pre : Path) (call : Call) : pre.placing.Resolves call call where
  hops := rfl
  depth := rfl
  get i := (congrFun Option.map_id (call.options.arena.bind (·.get? i))).symm
  missingArena _ := rfl
  undefinedId _ := rfl
  depthExceeded _ _ := rfl

/-- When no message is taken from a path, a visit has the same outcome at a deeper place,
with the way to that place in front of every path. -/
theorem Visit.outcome_under {call : Call} (h : call.options.messages.IgnorePaths) (pre : Path)
    (t : Visit) : (t.under pre).outcome call = (t.outcome call).under pre := by
  have hreads (u : Visit) : pre.placing.Reads call call u :=
    ⟨fun _ _ _ _ _ _ _ _ => rfl, fun i _ => (pre.placing_resolves call).lazyPlan_translates _ _ _ i⟩
  have hmoved := Visit.outcome_translated (P := fun _ => True) (pre.placing_relates h)
    (fun u _ => hreads u) (fun _ _ _ _ => trivial) (t := t) trivial
  refine hmoved.trans ?_
  match t.outcome call with
  | .error _ => rfl
  | .ok (.success _) => rfl
  | .ok (.failure _) => rfl

end ValueSchema

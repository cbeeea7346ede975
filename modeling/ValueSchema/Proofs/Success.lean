import ValueSchema.Proofs.Run

/-!
# What a success says

A plan succeeds only through successes of the visits that it starts.  For each form of plan
there is a statement here that says which visits these are, and what the output is made of:
`Plan.andThen_success_iff`, `Plan.parts_success_iff`, `Plan.union_success_iff` and
`Plan.intersection_success_iff`.

`leftBy` is what checks leave of a value, without a call or a place.  A validation by checks
succeeds when all of them let the value pass, and its output is what they leave of it
(`Schema.finished_success_iff`).
-/

namespace ValueSchema

/-! ## Steps that all succeed -/

namespace Outcome

/-- The output of a success. -/
def output : Outcome → Value
  | .ok (.success w) => w
  | _ => .undefined

theorem output_eq {o : Outcome} {w : Value} (h : o = .ok (.success w)) : o.output = w := by
  rw [h, output]

/-- Steps that all have to succeed raise no issue just when all of them do. -/
theorem gather_nil_iff (stops : Bool) :
    ∀ {os : List Outcome} {ws : List Value},
      gather stops os = .ok ([], ws) ↔ os = ws.map fun w => .ok (.success w)
  | [], [] => ⟨fun _ => rfl, fun _ => rfl⟩
  | [], w :: ws => ⟨nofun, nofun⟩
  | .error e :: os, [] => ⟨nofun, nofun⟩
  | .error e :: os, w :: ws => ⟨nofun, nofun⟩
  | .ok (.success u) :: os, [] => by
      simp [gather, map_eq_ok_iff]
  | .ok (.success u) :: os, w :: ws => by
      have ih : gather stops os = .ok ([], ws) ↔ _ := gather_nil_iff stops
      simp [gather, map_eq_ok_iff, ← ih, and_comm]
  | .ok (.failure is) :: os, ws => by
      have hne : is.toList ≠ [] := by simp [Issues.toList]
      have hcons : (.ok (.failure is) :: os : List Outcome) ≠
          ws.map fun w => .ok (.success w) := by
        cases ws <;> simp
      refine ⟨fun h => ?_, fun h => absurd h hcons⟩
      rw [gather] at h
      split at h
      next => simp [Issues.toList] at h
      next =>
          obtain ⟨r, -, hr⟩ := map_eq_ok_iff.mp h
          simp [Issues.toList] at hr

theorem misuse?_successes (ws : List Value) :
    misuse? (ws.map fun w => .ok (.success w)) = none := by
  induction ws with
  | nil => rfl
  | cons w ws ih => exact ih

/-- What members amount to is what they amount to in turn, unless a later misuse counts. -/
theorem gather_of_gatherMembers {mode : Mode} {stops : Bool} {os : List Outcome}
    {r : List Issue × List Value} (h : gatherMembers mode stops os = .ok r) :
    gather stops os = .ok r := by
  cases mode with
  | immediate => exact h
  | deferred =>
      rw [gatherMembers, gatherAll] at h
      split at h
      · cases h
      · exact h

/-- Members raise no issue just when all of them succeed. -/
theorem gatherMembers_nil_iff {mode : Mode} {stops : Bool} {os : List Outcome}
    {ws : List Value} :
    gatherMembers mode stops os = .ok ([], ws) ↔ os = ws.map fun w => .ok (.success w) := by
  refine ⟨fun h => (gather_nil_iff stops).mp (gather_of_gatherMembers h), ?_⟩
  rintro rfl
  have hgather := (gather_nil_iff stops).mpr (rfl : ws.map (fun w => (.ok (.success w) : Outcome)) = _)
  cases mode with
  | immediate => exact hgather
  | deferred =>
      rw [gatherMembers, gatherAll, misuse?_successes]
      exact hgather

/-- Steps that raise an issue have a failure among them. -/
theorem exists_failure_of_gather {stops : Bool} {i : Issue} {is : List Issue} :
    ∀ {os : List Outcome} {ws : List Value}, gather stops os = .ok (i :: is, ws) →
      ∃ js, .ok (.failure js) ∈ os
  | .ok (.success u) :: os, ws, h => by
      obtain ⟨⟨js, us⟩, hr, he⟩ := map_eq_ok_iff.mp h
      obtain rfl : js = i :: is := congrArg Prod.fst he
      obtain ⟨ks, hks⟩ := exists_failure_of_gather hr
      exact ⟨ks, List.mem_cons_of_mem _ hks⟩
  | .ok (.failure js) :: os, ws, h => ⟨js, List.mem_cons_self ..⟩

end Outcome

/-! ## Plans -/

namespace Plan

variable {mode : Mode} {visit : Visit → Outcome} {w : Value}

theorem after_eq_success_iff {is : List Issue} {o : Validation} :
    Validation.after is o = .success w ↔ is = [] ∧ o = .success w := by
  cases is with
  | nil => simp [Validation.after]
  | cons i is => simp [Validation.after]

theorem conclude_success_iff {r : Except Misuse (List Issue × List Value)}
    {build : List Value → Validation} :
    conclude r build = .ok (.success w) ↔ ∃ ws, r = .ok ([], ws) ∧ build ws = .success w := by
  rw [conclude, Outcome.map_eq_ok_iff]
  constructor
  · rintro ⟨⟨is, ws⟩, hr, hw⟩
    obtain ⟨rfl, hb⟩ := after_eq_success_iff.mp hw
    exact ⟨ws, hr, hb⟩
  · rintro ⟨ws, hr, hb⟩
    exact ⟨([], ws), hr, hb⟩

theorem andThen_success_iff {t : Visit} {next : Value → Plan} :
    (andThen t next).outcome mode visit = .ok (.success w) ↔
      ∃ u, visit t = .ok (.success u) ∧ (next u).outcome mode visit = .ok (.success w) := by
  rw [outcome]
  cases visit t with
  | error e => simp
  | ok o => cases o <;> simp

theorem pass_success_iff {t : Visit} :
    (pass t).outcome mode visit = .ok (.success w) ↔ visit t = .ok (.success w) := by
  rw [outcome_pass]

/-- The outcomes of visits are all successes when they are those of their outputs. -/
theorem exists_successes_iff {ts : List Visit} {Q : List Value → Prop} :
    (∃ ws, (ts.map visit = ws.map fun w => .ok (.success w)) ∧ Q ws) ↔
      (∀ t ∈ ts, visit t = .ok (.success (visit t).output)) ∧
        Q (ts.map fun t => (visit t).output) := by
  constructor
  · rintro ⟨ws, h, hQ⟩
    have hws : ts.map (fun t => (visit t).output) = ws := by
      have hmap := congrArg (List.map Outcome.output) h
      simpa [List.map_map, Function.comp_def, Outcome.output] using hmap
    refine ⟨fun t ht => ?_, hws ▸ hQ⟩
    have hmem : visit t ∈ ws.map fun w => .ok (.success w) := h ▸ List.mem_map_of_mem ht
    obtain ⟨w, -, hw⟩ := List.mem_map.mp hmem
    rw [Outcome.output_eq hw.symm, hw]
  · rintro ⟨h, hQ⟩
    refine ⟨_, ?_, hQ⟩
    rw [List.map_map]
    exact List.map_congr_left h

theorem raised_append_iff {own : List Issue} {os : List Outcome} {ws : List Value} :
    (Outcome.raised own ++ os = ws.map fun w => .ok (.success w)) ↔
      own = [] ∧ os = ws.map fun w => .ok (.success w) := by
  cases own with
  | nil => simp [Outcome.raised]
  | cons i is => cases ws <;> simp [Outcome.raised]

/-- A container succeeds when it raises nothing itself, all its parts succeed and an output
can be put together from theirs. -/
theorem parts_success_iff {own : List Issue} {stops : Bool} {ts : List Visit}
    {build : List Value → Validation} :
    (parts own stops ts build).outcome mode visit = .ok (.success w) ↔
      own = [] ∧ (∀ t ∈ ts, visit t = .ok (.success (visit t).output)) ∧
        build (ts.map fun t => (visit t).output) = .success w := by
  rw [outcome, conclude_success_iff, ← exists_successes_iff (Q := fun ws => build ws = .success w)]
  simp only [Outcome.gather_nil_iff, raised_append_iff, and_assoc, exists_and_left]

theorem exists_first_cons {P Q : Visit → Prop} {t : Visit} {ts : List Visit} :
    (∃ before u after, t :: ts = before ++ u :: after ∧ (∀ x ∈ before, P x) ∧ Q u) ↔
      Q t ∨ P t ∧ ∃ before u after, ts = before ++ u :: after ∧ (∀ x ∈ before, P x) ∧ Q u := by
  constructor
  · rintro ⟨before, u, after, he, hp, hq⟩
    cases before with
    | nil =>
        obtain ⟨rfl, -⟩ := List.cons.inj he
        exact .inl hq
    | cons x before =>
        obtain ⟨rfl, rfl⟩ := List.cons.inj he
        obtain ⟨ht, hp⟩ := List.forall_mem_cons.mp hp
        exact .inr ⟨ht, before, u, after, rfl, hp, hq⟩
  · rintro (hq | ⟨ht, before, u, after, rfl, hp, hq⟩)
    · exact ⟨[], t, ts, rfl, nofun, hq⟩
    · exact ⟨t :: before, u, after, rfl, List.forall_mem_cons.mpr ⟨ht, hp⟩, hq⟩

/-- Steps of which one has to succeed give the output of the first that does, and those
before it fail. -/
theorem choose_ok_iff {ts : List Visit} :
    Outcome.choose (ts.map visit) = .ok (.ok w) ↔
      ∃ before t after, ts = before ++ t :: after ∧
        (∀ u ∈ before, ∃ is, visit u = .ok (.failure is)) ∧ visit t = .ok (.success w) := by
  induction ts with
  | nil => simp [Outcome.choose]
  | cons t ts ih =>
      rw [exists_first_cons, ← ih, List.map_cons]
      cases visit t with
      | error e => simp [Outcome.choose]
      | ok o =>
          cases o with
          | success u => simp [Outcome.choose]
          | failure is =>
              rw [Outcome.choose, Outcome.map_eq_ok_iff]
              constructor
              · rintro ⟨r, hr, hw⟩
                cases r with
                | error js => cases hw
                | ok x =>
                    obtain rfl := Except.ok.inj hw
                    exact .inr ⟨⟨is, rfl⟩, hr⟩
              · rintro (h | ⟨-, hr⟩)
                · cases h
                · exact ⟨.ok w, hr, rfl⟩

/-- A union succeeds with the output of its first member that does. -/
theorem union_success_iff {ts : List Visit} {refusal : List Issue → Issue} :
    (union ts refusal).outcome mode visit = .ok (.success w) ↔
      ∃ before t after, ts = before ++ t :: after ∧
        (∀ u ∈ before, ∃ is, visit u = .ok (.failure is)) ∧ visit t = .ok (.success w) := by
  rw [outcome, Outcome.map_eq_ok_iff, ← choose_ok_iff]
  constructor
  · rintro ⟨r, hr, hw⟩
    cases r with
    | error is => cases hw
    | ok x =>
        obtain rfl := Validation.success.inj hw
        exact hr
  · exact fun h => ⟨.ok w, h, rfl⟩

/-- An intersection succeeds when all its members do and their outputs can be put together. -/
theorem intersection_success_iff {stops : Bool} {ts : List Visit}
    {build : List Value → Validation} :
    (intersection stops ts build).outcome mode visit = .ok (.success w) ↔
      (∀ t ∈ ts, visit t = .ok (.success (visit t).output)) ∧
        build (ts.map fun t => (visit t).output) = .success w := by
  rw [outcome, conclude_success_iff, ← exists_successes_iff (Q := fun ws => build ws = .success w)]
  simp only [Outcome.gatherMembers_nil_iff]

end Plan

/-! ## Leaves -/

/-- The values that a leaf stands for. -/
def Leaf.Admits (l : Leaf) (v : Value) : Prop :=
  match l with
  | .any => True
  | .unknown => True
  | .never => v = .undefined
  | .undefined => v = .undefined
  | .null => v = .null
  | .boolean => ∃ b, v = .bool b
  | .string => ∃ s, v = .string s
  | .number => ∃ x, v = .number x ∧ x.isNaN = false
  | .bigint => ∃ n, v = .bigint n
  | .date => ∃ t, v = .date t
  | .buffer => ∃ bytes, v = .buffer bytes
  | .literal w => (v == w) = true
  | .enum ws => ∃ w ∈ ws, (w == v) = true

theorem Leaf.admits_iff_kind_eq {l : Leaf} {k : ValueKind} (h : l.expectedKind? = some k)
    (v : Value) : l.Admits v ↔ v.kind = k := by
  have hnan : ∀ x : Double, (Value.number x).kind = if x.isNaN then .nan else .number := fun _ => rfl
  cases l with
  | number =>
      obtain rfl := Option.some.inj h
      cases v with
      | number x =>
          rw [hnan]
          cases hx : x.isNaN <;> simp [Admits, hx]
      | _ => simp [Admits, Value.kind]
  | any => cases h
  | unknown => cases h
  | never => cases h
  | literal w => cases h
  | enum ws => cases h
  | _ =>
      obtain rfl := Option.some.inj h
      cases v with
      | number x =>
          rw [hnan]
          cases hx : x.isNaN <;> simp [Admits]
      | _ => simp [Admits, Value.kind]

/-- A leaf refuses just what it does not stand for. -/
theorem Leaf.refusal?_eq_none_iff {l : Leaf} {s : Settings} {v : Value} :
    l.refusal? s v = none ↔ l.Admits v := by
  have hkind : ∀ k, (if v.kind = k then none else some (s.typeRefusal k v)) = none ↔ v.kind = k := by
    intro k
    split <;> simp_all
  cases l with
  | any => simp [refusal?, expectedKind?, Admits]
  | unknown => simp [refusal?, expectedKind?, Admits]
  | never => cases v <;> simp [refusal?, Value.isUndefined, Admits]
  | literal w =>
      rw [refusal?, Admits]
      split
      next h => simp [h]
      next h => split <;> simp_all
  | enum ws =>
      rw [refusal?, Admits]
      split
      next h => simpa using h
      next h => split <;> simp_all
  | _ => exact (hkind _).trans (admits_iff_kind_eq rfl v).symm

/-! ## Checks -/

/-- What checks leave of a value that all of them let pass. -/
def leftBy : List CheckEntry → Value → Option Value
  | [], v => some v
  | e :: es, v =>
      match e.check.evaluate v with
      | .pass => leftBy es v
      | .rewrite w => leftBy es w
      | .fail _ => none

theorem leftBy_eq_some {es : List CheckEntry} {v : Value}
    (h : ∀ e ∈ es, e.check.evaluate v = .pass) : leftBy es v = some v := by
  induction es with
  | nil => rfl
  | cons e es ih =>
      obtain ⟨he, hes⟩ := List.forall_mem_cons.mp h
      rw [leftBy, he]
      exact ih hes

/-- Checks that rewrite nothing leave the value as it is, and all of them let it pass. -/
theorem pass_of_leftBy {es : List CheckEntry} {v w : Value}
    (hkeep : ∀ e ∈ es, ∀ v u, e.check.evaluate v ≠ .rewrite u) (h : leftBy es v = some w) :
    w = v ∧ ∀ e ∈ es, e.check.evaluate v = .pass := by
  induction es with
  | nil => exact ⟨(Option.some.inj h).symm, nofun⟩
  | cons e es ih =>
      obtain ⟨he, hes⟩ := List.forall_mem_cons.mp hkeep
      rw [leftBy] at h
      cases hv : e.check.evaluate v with
      | pass =>
          rw [hv] at h
          obtain ⟨hw, hpass⟩ := ih hes h
          exact ⟨hw, List.forall_mem_cons.mpr ⟨hv, hpass⟩⟩
      | rewrite u => exact absurd hv (he v u)
      | fail received =>
          rw [hv] at h
          cases h

namespace Schema

variable {node : Schema} {call : Call} {path : Path}

/-- Checks raise no issue just when they leave something of the value. -/
theorem checkedBy_nil_iff {stops : Bool} {w : Value} :
    ∀ {es : List CheckEntry} {v : Value},
      node.checkedBy call path stops es v = ([], w) ↔ leftBy es v = some w
  | [], v => by simp [checkedBy, leftBy]
  | e :: es, v => by
      rw [checkedBy, leftBy]
      cases e.check.evaluate v with
      | pass => exact checkedBy_nil_iff
      | rewrite u => exact checkedBy_nil_iff
      | fail received =>
          dsimp only
          cases stops <;> simp

/-- A validation by checks succeeds with what they leave of the value. -/
theorem finished_success_iff {select : CheckKind → Bool} {convert : Value → Value} {v w : Value} :
    node.finished call path select convert v = .success w ↔
      ∃ u, leftBy (node.checks.entries.filter fun e => select e.kind) v = some u ∧
        convert u = w := by
  rw [finished, Plan.after_eq_success_iff]
  constructor
  · rintro ⟨hnil, hw⟩
    refine ⟨_, checkedBy_nil_iff.mp (Prod.ext hnil rfl), Validation.success.inj hw⟩
  · rintro ⟨u, hu, rfl⟩
    have hc : node.checked call path select v = ([], u) := checkedBy_nil_iff.mpr hu
    rw [hc]
    exact ⟨rfl, rfl⟩

/-- A leaf succeeds with what its checks leave of the converted value, in the form that the
leaf asks for. -/
theorem leafValidation_success_iff {l : Leaf} {v w : Value} :
    node.leafValidation call path v l = .success w ↔
      l.refusal? node.settings (if node.settings.coerces then l.coerce v else v) = none ∧
      ∃ u, leftBy node.checks.entries (if node.settings.coerces then l.coerce v else v) = some u ∧
        (if node.settings.casts then u.cast else u) = w := by
  unfold leafValidation
  dsimp only
  split
  next r hr => simp [hr]
  next hr =>
      rw [finished_success_iff, List.filter_true]
      exact (and_iff_right hr).symm

theorem lazyPlan_eq_pass {v : Value} {hops : Nat} {id : SchemaId} {s : Schema}
    (h : call.options.arena.bind (·.get? id) = some s) :
    lazyPlan call path v (hops + 1) id = .pass ⟨hops, s, path, v⟩ := by
  obtain ⟨a, ha, hs⟩ := Option.bind_eq_some_iff.mp h
  unfold lazyPlan
  rw [ha]
  dsimp only
  rw [hs]

/-- A lazy node succeeds when the definition that it names does. -/
theorem lazyPlan_success_iff {mode : Mode} {visit : Visit → Outcome} {v w : Value} {hops : Nat}
    {id : SchemaId} :
    (lazyPlan call path v hops id).outcome mode visit = .ok (.success w) ↔
      ∃ n s, hops = n + 1 ∧ call.options.arena.bind (·.get? id) = some s ∧
        visit ⟨n, s, path, v⟩ = .ok (.success w) := by
  constructor
  · intro h
    unfold lazyPlan at h
    split at h
    next => cases h
    next a ha =>
        split at h
        next => cases h
        next n =>
            split at h
            next s hs =>
                refine ⟨n, s, rfl, ?_, Plan.pass_success_iff.mp h⟩
                rw [ha]
                exact hs
            next => cases h
  · rintro ⟨n, s, rfl, hs, h⟩
    rw [lazyPlan_eq_pass hs]
    exact Plan.pass_success_iff.mpr h

/-- A container succeeds when it has parts, raises nothing itself, and all its parts succeed.
Its output is put together from theirs, and checked and converted after that. -/
theorem containerPlan_success_iff {mode : Mode} {visit : Visit → Outcome} {v w : Value}
    {hops : Nat} :
    (node.containerPlan call path v hops).outcome mode visit = .ok (.success w) ↔
      ∃ parts, node.parts? v call.options.arena = some parts ∧ node.ownIssues call path v = [] ∧
        ∃ f : Part → Value, (∀ p ∈ parts, visit (p.visit hops path) = .ok (.success (f p))) ∧
        ∃ u, leftBy (node.checks.entries.filter fun e => node.runsLater e.kind)
          (node.assemble v parts (parts.map f)) = some u ∧ node.castOutput u = w := by
  unfold containerPlan
  cases hp : node.parts? v call.options.arena with
  | none => simp [Plan.outcome]
  | some parts =>
      dsimp only
      rw [Plan.parts_success_iff]
      simp only [finished_success_iff, Option.some.injEq, exists_eq_left']
      refine and_congr_right fun _ => ⟨?_, ?_⟩
      · rintro ⟨hf, u, hu, hw⟩
        refine ⟨fun p => (visit (p.visit hops path)).output,
          fun p hp => hf _ (List.mem_map_of_mem hp), u, ?_, hw⟩
        rw [List.map_map] at hu
        exact hu
      · rintro ⟨f, hf, u, hu, hw⟩
        have hout : (parts.map (Part.visit hops path)).map (fun t => (visit t).output) =
            parts.map f := by
          rw [List.map_map]
          exact List.map_congr_left fun p hp => Outcome.output_eq (hf p hp)
        refine ⟨fun t ht => ?_, u, hout ▸ hu, hw⟩
        obtain ⟨p, hp, rfl⟩ := List.mem_map.mp ht
        rw [Outcome.output_eq (hf p hp), hf p hp]

end Schema

end ValueSchema

import ValueSchema.Proofs.Parts
import ValueSchema.Proofs.Placement
import ValueSchema.Proofs.Success

/-!
# Containers and their parts

A container without checks that collects all issues says exactly what its parts say when
each is parsed in a call of its own (`Schema.safeParse_container`): the issues are its own
ones about keys and then those of the parts in order, with the segment of the part in
front of every path.  Without an issue its output is put together from the outputs of
those calls, and a misuse of one of them is a misuse of the container.  A record has the
output of each value under the key that the output of its key stands for.
-/

namespace ValueSchema

namespace Outcome

/-- The issues of an outcome. -/
def issues : Outcome → List Issue
  | .ok o => o.issues
  | .error _ => []

/-- The output of an outcome, if it is a success. -/
def output? : Outcome → Option Value
  | .ok o => o.output?
  | .error _ => none

/-- Steps that never stop early amount to their first misuse, or else to all their issues
and outputs. -/
theorem gather_false_eq (os : List Outcome) :
    gather false os = match misuse? os with
      | some e => .error e
      | none => .ok (os.flatMap issues, os.filterMap output?) := by
  induction os with
  | nil => rfl
  | cons o os ih =>
      match o with
      | .error e => rfl
      | .ok (.success w) =>
          have hm : misuse? (.ok (.success w) :: os) = misuse? os := rfl
          show Except.map _ (gather false os) = _
          rw [ih, hm]
          cases misuse? os <;> rfl
      | .ok (.failure is) =>
          have hm : misuse? (.ok (.failure is) :: os) = misuse? os := rfl
          show Except.map _ (gather false os) = _
          rw [ih, hm]
          cases misuse? os <;> rfl

theorem issues_successes (ws : List Value) :
    (ws.map fun w => .ok (.success w)).flatMap issues = [] := by
  induction ws with
  | nil => rfl
  | cons w ws ih => exact ih

theorem output?_successes (ws : List Value) :
    (ws.map fun w => .ok (.success w)).filterMap output? = ws := by
  induction ws with
  | nil => rfl
  | cons w ws ih => exact congrArg (w :: ·) ih

end Outcome

namespace Schema

/-- The issues that an object raises about its keys. -/
def keyIssues (node : Schema) (call : Call) (v : Value) : List Issue :=
  match node.kind, v with
  | .object shape unknown, .object input =>
      (keyCauses call.options.arena shape unknown input).map fun c => call.issue c .root none v
  | _, _ => []

theorem checked_of_nil {node : Schema} (h : node.checks.entries = []) (call : Call) (path : Path)
    (select : CheckKind → Bool) (v : Value) : node.checked call path select v = ([], v) := by
  rw [checked, h]
  rfl

theorem finished_of_nil {node : Schema} (h : node.checks.entries = []) {call : Call} {path : Path}
    (select : CheckKind → Bool) (convert : Value → Value) (v : Value) :
    node.finished call path select convert v = .success (convert v) := by
  rw [finished, checked_of_nil h]
  rfl

/-- Without checks, the issues that a container raises itself are about keys. -/
theorem ownIssues_of_nil {node : Schema} (h : node.checks.entries = []) {call : Call}
    (hstops : node.stops call = false) (v : Value) :
    node.ownIssues call .root v = node.keyIssues call v := by
  have hnone : ∀ w, (node.checked call .root CheckKind.isSize w).1 = [] := by
    intro w
    rw [checked_of_nil h]
  unfold ownIssues keyIssues containerInput
  rw [hstops]
  cases node.kind with
  | object shape unknown => cases v <;> first | rfl | exact hnone _
  | tuple items rest => rfl
  | _ => exact hnone _

/-- What a container without checks gives in a call that collects all issues, by the results of
its parts. -/
theorem safeParse_parts {node : Schema} {mode : Mode} {options : Options} {v : Value}
    {parts : List Part} {results : List Outcome} (hcache : options.cache = none)
    (hall : options.abortEarly = some false) (hpaths : options.messages.IgnorePaths)
    (hchecks : node.checks.entries = []) (hparts : node.parts? v options.arena = some parts)
    (hresults : parts.map (fun t => Outcome.under ⟨[t.segment]⟩
      (t.schema.safeParse mode options t.value).result) = results) :
    (node.safeParse mode options v).result =
      match Outcome.misuse? results with
      | some e => .error e
      | none => .ok (.after (node.keyIssues ⟨options, mode⟩ v ++ results.flatMap Outcome.issues)
          (.success (node.castOutput
            (node.assemble v parts (results.filterMap Outcome.output?))))) := by
  have hstops : node.stops ⟨options, mode⟩ = false := by
    unfold stops Call.abortsEarly
    rw [hall]
    rfl
  have hplan : node.plan ⟨options, mode⟩ .root v (hopsOf ⟨options, mode⟩) =
      .parts (node.keyIssues ⟨options, mode⟩ v) false
        (parts.map (Part.visit (hopsOf ⟨options, mode⟩) .root))
        fun ws => .success (node.castOutput (node.assemble v parts ws)) := by
    rw [plan_of_parts hparts]
    unfold containerPlan finished
    simp only [hparts, hstops, ownIssues_of_nil hchecks hstops, checked_of_nil hchecks]
    rfl
  have hvisits : (parts.map (Part.visit (hopsOf ⟨options, mode⟩) .root)).map
      (Visit.outcome ⟨options, mode⟩) = results := by
    rw [← hresults, List.map_map]
    refine List.map_congr_left fun t _ => ?_
    rw [safeParse_uncached t.schema mode options t.value hcache]
    exact Visit.outcome_under hpaths ⟨[t.segment]⟩ (t.schema.rootVisit ⟨options, mode⟩ t.value)
  rw [safeParse_uncached node mode options v hcache, Visit.outcome_eq]
  show (node.plan ⟨options, mode⟩ .root v (hopsOf ⟨options, mode⟩)).outcome mode
    (Visit.outcome ⟨options, mode⟩) = _
  rw [hplan, Plan.outcome, hvisits, Outcome.gather_raised fun _ => rfl, Outcome.gather_false_eq]
  cases Outcome.misuse? results <;> rfl

/-- A container without checks in a call that collects all issues.  The parts are parsed
in calls of their own, with the same options.  When these succeed and the keys raise no issue, the
output is made of their outputs, which for a record are keys and values in turn. -/
theorem safeParse_container (node : Schema) (mode : Mode) (options : Options) (v : Value)
    (parts : List Part) (hcache : options.cache = none) (hall : options.abortEarly = some false)
    (hpaths : options.messages.IgnorePaths) (hchecks : node.checks.entries = [])
    (hparts : node.parts? v options.arena = some parts) :
    let results : List Outcome := parts.map fun t =>
      Outcome.under ⟨[t.segment]⟩ (t.schema.safeParse mode options t.value).result
    ((node.safeParse mode options v).result =
      match Outcome.misuse? results with
      | some e => .error e
      | none => .ok (.after (node.keyIssues ⟨options, mode⟩ v ++ results.flatMap Outcome.issues)
          (.success (node.castOutput
            (node.assemble v parts (results.filterMap Outcome.output?)))))) ∧
    ∀ f : Part → Value, node.keyIssues ⟨options, mode⟩ v = [] →
      (∀ t ∈ parts, (t.schema.safeParse mode options t.value).result = .ok (.success (f t))) →
      (node.safeParse mode options v).result =
        .ok (.success (node.castOutput (node.assemble v parts (parts.map f)))) ∧
      ∀ key value input, node.kind = .record key value → v = .object input →
        (node.safeParse mode options v).result =
          .ok (.success (.object (Entries.ofList (input.toList.map fun e =>
            (recordKey (f ⟨.field e.1, key, .string e.1⟩), f ⟨.field e.1, value, e.2⟩))))) := by
  refine ⟨safeParse_parts hcache hall hpaths hchecks hparts rfl, fun f hkeys hf => ?_⟩
  have hresults : parts.map (fun t => Outcome.under ⟨[t.segment]⟩
      (t.schema.safeParse mode options t.value).result) =
      (parts.map f).map fun w => .ok (.success w) := by
    rw [List.map_map]
    refine List.map_congr_left fun t ht => ?_
    rw [hf t ht]
    rfl
  have hsuccess : (node.safeParse mode options v).result =
      .ok (.success (node.castOutput (node.assemble v parts (parts.map f)))) := by
    rw [safeParse_parts hcache hall hpaths hchecks hparts hresults, Outcome.misuse?_successes,
      Outcome.issues_successes, Outcome.output?_successes, hkeys]
    rfl
  refine ⟨hsuccess, fun key value input hk hv => ?_⟩
  obtain ⟨input', hinput, rfl⟩ := (parts?_record_iff hk).mp hparts
  obtain rfl := Value.object.inj (hinput.symm.trans hv)
  have hcast (w : Value) : node.castOutput w = w := by
    unfold castOutput
    rw [hk]
  rw [hsuccess, hcast, assemble_record hk]

/-- An object with a text or null, and with a truth value. -/
def formNode : Schema :=
  let name : Schema :=
    ⟨2, .union [⟨0, .leaf .string, .empty, {}⟩, ⟨1, .leaf .null, .empty, {}⟩], .empty, {}⟩
  let done : Schema := ⟨3, .leaf .boolean, .empty, {}⟩
  ⟨4, .object ⟨[("name", name), ("done", done)]⟩ .strip, .empty, {}⟩

/-- An object without its second field, whose first field is neither a text nor null. -/
def formInput : Value := .record [("name", .bool true)]

/-- A record of texts by numbers.  Keys are read as numbers, and other values as texts. -/
def notesNode : Schema :=
  ⟨7, .record ⟨5, .leaf .number, .empty, { coerces := true }⟩
    ⟨6, .leaf .string, .empty, { coerces := true }⟩, .empty, {}⟩

/-- Two keys that are the same number. -/
def notesInput : Value := .record [("1", .bool true), ("01", .string "c")]

theorem formNode_composed :
    formNode.checks.entries = [] ∧
      (formNode.parts? formInput none).isSome = true ∧
      (formNode.safeParse .deferred { abortEarly := some false } formInput).result =
        .ok (.failure
          ⟨⟨.missingKeys ["done"], .root, "missing keys: done", formInput⟩,
            [⟨.invalidUnion
                [⟨.invalidType .string .boolean, ⟨[.field "name"]⟩,
                    "expected string, received boolean", .bool true⟩,
                  ⟨.invalidType .null .boolean, ⟨[.field "name"]⟩,
                    "expected null, received boolean", .bool true⟩],
              ⟨[.field "name"]⟩, "no union member matched", .bool true⟩]⟩) ∧
      (notesNode.safeParse .deferred { abortEarly := some false } notesInput).result =
        .ok (.success (.record [("1", .string "c")])) := by
  have hpaths : ({} : Resolvers).IgnorePaths := fun m hm => nomatch hm
  obtain ⟨hform, -⟩ := safeParse_container formNode .deferred { abortEarly := some false } formInput
    _ rfl rfl hpaths rfl rfl
  obtain ⟨-, hnotes⟩ := safeParse_container notesNode .deferred { abortEarly := some false }
    notesInput _ rfl rfl hpaths rfl rfl
  obtain ⟨-, hrecord⟩ := hnotes
    (fun t => Outcome.output (t.schema.safeParse .deferred { abortEarly := some false } t.value).result)
    rfl (List.forall_mem_cons.mpr ⟨rfl, List.forall_mem_cons.mpr ⟨rfl,
      List.forall_mem_cons.mpr ⟨rfl, List.forall_mem_singleton.mpr rfl⟩⟩⟩)
  exact ⟨rfl, rfl, hform.trans rfl, (hrecord _ _ _ rfl rfl).trans rfl⟩

end Schema

end ValueSchema

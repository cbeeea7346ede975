import ValueSchema.Proofs.Success
import ValueSchema.Proofs.Parts

/-!
# Objects and their plans

An object has a part for each declared key that is there or may be missing, and for each
undeclared key that has a schema (`objectParts`).  Its plan visits these, and puts the outputs
together with the undeclared entries that are kept as they are (`objectOutput`).

`Schema.object_success_iff` says when an object without checks succeeds, and with what.
-/

namespace ValueSchema

/-- The parts of an object. -/
def objectParts (arena : Option Arena) (shape : Entries Schema) (unknown : UnknownKeys Schema)
    (input : Entries Value) : List Part :=
  fieldParts arena shape input ++ catchallParts shape unknown input

/-- The entries of an object, from the outputs of its parts. -/
def objectOutput (arena : Option Arena) (shape : Entries Schema) (unknown : UnknownKeys Schema)
    (input : Entries Value) (outputs : List Value) : Entries Value :=
  (Entries.ofList (keptEntries (objectParts arena shape unknown input) outputs)).insertAll
    (Schema.keptUndeclared shape unknown input)

/-- The entries of a value that an object does not declare. -/
def Value.undeclared (shape : Entries Schema) : Value → List (String × Value)
  | .object input => undeclaredEntries shape input
  | _ => []

/-- A visit that succeeds has its output. -/
def Visit.output (call : Call) (t : Visit) : Value := (t.outcome call).output

/-- A visit succeeds. -/
def Visit.Succeeds (call : Call) (t : Visit) : Prop := ∃ w, t.outcome call = .ok (.success w)

theorem Visit.succeeds_iff {call : Call} {t : Visit} :
    t.Succeeds call ↔ t.outcome call = .ok (.success (t.output call)) :=
  ⟨fun ⟨w, hw⟩ => by rw [output, Outcome.output_eq hw, hw], fun h => ⟨_, h⟩⟩

namespace Schema

variable {node : Schema} {call : Call} {path : Path} {hops : Nat} {shape : Entries Schema}
  {unknown : UnknownKeys Schema} {input : Entries Value} {v w : Value}

theorem ownIssues_object (hk : node.kind = .object shape unknown) (call : Call) (path : Path)
    (input : Entries Value) :
    node.ownIssues call path (.object input) =
      let issues := (keyCauses call.options.arena shape unknown input).map fun c =>
        call.issue c path none (.object input)
      if node.stops call then issues.take 1 else issues := by
  unfold ownIssues containerInput
  rw [hk]

/-- The plan of an object on an object. -/
theorem plan_object (hk : node.kind = .object shape unknown) (call : Call) (path : Path)
    (input : Entries Value) (hops : Nat) :
    node.plan call path (.object input) hops =
      .parts (node.ownIssues call path (.object input)) (node.stops call)
        ((objectParts call.options.arena shape unknown input).map (Part.visit hops path))
        fun ws => node.finished call path (fun _ => true) (fun w => w)
          (.object (objectOutput call.options.arena shape unknown input ws)) := by
  have hparts : node.parts? (.object input) call.options.arena =
      some (objectParts call.options.arena shape unknown input) :=
    (parts?_object_iff hk).mpr ⟨input, rfl, rfl⟩
  have hlater : node.runsLater = fun _ => true := by
    funext k
    rw [runsLater, hk]
  have hcast : node.castOutput = fun w => w := by
    funext w
    rw [castOutput, hk]
  rw [plan, hk]
  dsimp only
  rw [containerPlan, hparts, hlater, hcast]
  simp only [assemble_object hk]
  rfl

/-- The plan of an object on anything else. -/
theorem plan_object_of_ne (hk : node.kind = .object shape unknown)
    (hv : ∀ input, v ≠ .object input) :
    node.plan call path v hops =
      .done (.ok (.failure ⟨call.issue (node.settings.typeRefusal .object v).1 path
        (node.settings.typeRefusal .object v).2 v, []⟩)) := by
  have hin : node.containerInput v = v := by rw [containerInput, hk]
  have hparts : node.parts? v call.options.arena = none := by
    cases hp : node.parts? v call.options.arena with
    | none => rfl
    | some parts =>
        obtain ⟨input, he, -⟩ := (parts?_object_iff hk).mp hp
        exact absurd he (hv input)
  have hrefusal : node.containerRefusal v = node.settings.typeRefusal .object v := by
    rw [containerRefusal, wrongArity?, hin, hk]
  rw [plan, hk]
  dsimp only
  rw [containerPlan, hparts]
  dsimp only
  rw [hrefusal, hin]

/-- An object without checks succeeds on an object that lacks no key and has none that it must
not have, when all parts succeed. -/
theorem object_success_iff (hk : node.kind = .object shape unknown)
    (hchecks : node.checks.entries = []) :
    Visit.outcome call ⟨hops, node, path, .object input⟩ = .ok (.success w) ↔
      keyCauses call.options.arena shape unknown input = [] ∧
        (∀ p ∈ objectParts call.options.arena shape unknown input,
          (p.visit hops path).Succeeds call) ∧
        .object (objectOutput call.options.arena shape unknown input
          ((objectParts call.options.arena shape unknown input).map fun p =>
            (p.visit hops path).output call)) = w := by
  rw [Visit.outcome_eq]
  show (node.plan call path (.object input) hops).outcome call.mode _ = _ ↔ _
  rw [plan_object hk, Plan.parts_success_iff, ownIssues_object_iff hk, List.forall_mem_map,
    List.map_map]
  refine and_congr_right fun _ => and_congr ?_ ?_
  · exact forall₂_congr fun p _ => Visit.succeeds_iff.symm
  · rw [finished_success_iff, hchecks]
    simp only [List.filter_nil, leftBy, Option.some.injEq, exists_eq_left']
    rfl

theorem object_succeeds_iff (hk : node.kind = .object shape unknown)
    (hchecks : node.checks.entries = []) :
    Visit.Succeeds call ⟨hops, node, path, .object input⟩ ↔
      keyCauses call.options.arena shape unknown input = [] ∧
        ∀ p ∈ objectParts call.options.arena shape unknown input,
          (p.visit hops path).Succeeds call := by
  unfold Visit.Succeeds
  simp only [object_success_iff hk hchecks, exists_and_left, exists_eq', and_true]
  rfl

/-- An object succeeds on objects only. -/
theorem object_not_success (hk : node.kind = .object shape unknown)
    (hv : ∀ input, v ≠ .object input) :
    Visit.outcome call ⟨hops, node, path, v⟩ ≠ .ok (.success w) := by
  rw [Visit.outcome_eq]
  show (node.plan call path v hops).outcome call.mode _ ≠ _
  rw [plan_object_of_ne hk hv]
  exact nofun

end Schema

end ValueSchema

import ValueSchema.Parse.Node

/-!
# Parsing with a schema

`Schema.run` is the step of a schema: the fold of the steps of its nodes.  A lazy node
runs the definition that it names, and the number of lazy nodes that may still be
resolved one inside the other falls by one.  The recursion is on that number and then on
the schema, so every run ends, whatever the definitions of the arena are.

`Schema.run_eq` says that a run is the step of the node over the runs of the inner
schemas.
-/

namespace ValueSchema

namespace Schema

/-- The step of a lazy node.  `run` is the step of a definition one level deeper, and it is
absent at the last level.  The arena has to be there before its depth matters, and the
depth is tested before the definition is looked up. -/
def follow (call : Call) (run : Option (Schema → Runner)) (id : SchemaId) : Runner := fun v =>
  match call.options.arena with
  | none => Parser.misuse (.missingArena id)
  | some a =>
      match run with
      | none => do Parser.misuse (.depthExceeded a.maxDepth (← Parser.path))
      | some run =>
          match a.get? id with
          | some s => run s v
          | none => Parser.misuse (.undefinedId id)

/-- The step of a schema under which at most `hops` lazy nodes may be resolved one inside
the other. -/
def runWithin (call : Call) : Nat → Schema → Runner
  | 0 => fold (parseNode call (follow call none))
  | hops + 1 => fold (parseNode call (follow call (some (runWithin call hops))))
termination_by structural hops => hops

/-- How many lazy nodes may be resolved one inside the other in a call. -/
def hopsOf (call : Call) : Nat := (call.options.arena.map Arena.maxDepth).getD 0

/-- The step of a schema. -/
def run (call : Call) (s : Schema) : Runner := runWithin call (hopsOf call) s

/-- What lazy nodes run when at most `hops` of them may still be resolved. -/
def followWithin (call : Call) : Nat → SchemaId → Runner
  | 0 => follow call none
  | hops + 1 => follow call (some (runWithin call hops))

theorem runWithin_eq (call : Call) (hops : Nat) (s : Schema) :
    runWithin call hops s =
      parseNode call (followWithin call hops) s
        (s.kind.map fun t => (t, runWithin call hops t)) := by
  cases hops with
  | zero => exact fold_eq _ s
  | succ hops => exact fold_eq _ s

theorem run_eq (call : Call) (s : Schema) :
    run call s =
      parseNode call (followWithin call (hopsOf call)) s
        (s.kind.map fun t => (t, run call t)) :=
  runWithin_eq call (hopsOf call) s

end Schema

end ValueSchema

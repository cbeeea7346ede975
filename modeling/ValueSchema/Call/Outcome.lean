import ValueSchema.Arena.Basic

/-!
# Outcomes of calls

A call that parses a value ends in one of two ways.  Either the schema was used
wrongly, which is a `Misuse` and says nothing about the value, or there is a
`Validation`: the output, or the issues of the value, at least one.
-/

namespace ValueSchema

/-- A wrong use of a schema. -/
inductive Misuse where
  /-- A deferred effect was reached in a call that cannot wait. -/
  | deferredEffect (effect : String) (path : Path)
  /-- A lazy node was reached without an arena. -/
  | missingArena (id : SchemaId)
  /-- A lazy node names no definition of the arena. -/
  | undefinedId (id : SchemaId)
  /-- Lazy nodes were nested more deeply than the arena allows. -/
  | depthExceeded (maxDepth : Nat) (path : Path)
deriving DecidableEq, Repr

namespace Misuse

/-- The message of a misuse. -/
def message : Misuse → String
  | .deferredEffect effect path =>
      "async " ++ effect ++ " at '" ++ path.text ++ "' cannot run in a synchronous parse; "
        ++ "use parse_async or safe_parse_async"
  | .missingArena id =>
      "lazy schema " ++ id.text ++ " requires an arena; pass one with ParseOptions::arena"
  | .undefinedId id => "schema " ++ id.text ++ " is not defined in the arena"
  | .depthExceeded maxDepth path =>
      "maximum lazy resolution depth " ++ toString maxDepth ++ " exceeded at '" ++ path.text ++ "'"

end Misuse

/-- What a call says about a value. -/
inductive Validation where
  /-- The value is accepted, with an output. -/
  | success (output : Value)
  /-- The value is refused. -/
  | failure (issues : Issues)

end ValueSchema

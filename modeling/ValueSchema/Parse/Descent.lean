import ValueSchema.Parse.Parser

/-!
# Descent into the parts of a value

A `Descent` is a part of a value, one segment further, and the step that parses it.
`Parser.descend` parses several parts below the current place and gives their outputs,
nothing for a part that is refused.

An immediate call parses one part after the other.  When the node stops early, it stops
after the first part that is refused, and the outputs end there.  A deferred call parses
all parts.  When the node stops early, the parts after the first refused one are
discarded, misuses among them included.
-/

namespace ValueSchema

/-- A part of a value and the step that parses it. -/
structure Descent where
  /-- The segment that leads to the part. -/
  segment : Segment
  /-- The step. -/
  step : Parser (Option Value)

namespace Parser

/-- Parses parts one after the other. -/
def descendInTurn (abortsEarly : Bool) : List Descent → Parser (List (Option Value))
  | [] => return []
  | d :: ds => do
      let (result, report) ← isolated ((← path).push d.segment) d.step
      attach report
      match accepted (← ofExcept result) report with
      | some v => return some v :: (← descendInTurn abortsEarly ds)
      | none => if abortsEarly then return [none] else return none :: (← descendInTurn abortsEarly ds)
termination_by structural ds => ds

/-- Runs steps at given paths, each with a report of its own. -/
def runAll : List (Path × Parser (Option Value)) →
    Parser (List (Except Misuse (Option Value) × Report))
  | [] => return []
  | (at', x) :: xs => do
      let r ← isolated at' x
      return r :: (← runAll xs)
termination_by structural xs => xs

/-- Takes up the results of parts that were parsed together. -/
def settle (abortsEarly failed : Bool) :
    List (Except Misuse (Option Value) × Report) → Parser (List (Option Value))
  | [] => return []
  | (result, report) :: rs => do
      if failed && abortsEarly then
        discard report
        return none :: (← settle abortsEarly failed rs)
      else
        attach report
        let out := accepted (← ofExcept result) report
        return out :: (← settle abortsEarly (failed || out.isNone) rs)
termination_by structural rs => rs

/-- Parses parts of a value below the current place. -/
def descend (call : Call) (abortsEarly : Bool) (ds : List Descent) :
    Parser (List (Option Value)) := do
  match call.mode with
  | .immediate => descendInTurn abortsEarly ds
  | .deferred =>
      let here ← path
      settle abortsEarly false (← runAll (ds.map fun d => (here.push d.segment, d.step)))

end Parser

end ValueSchema

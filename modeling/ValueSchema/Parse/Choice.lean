import ValueSchema.Parse.Checks
import ValueSchema.Parse.Descent

/-!
# Unions and intersections

The members of a union or an intersection all parse the same value at the same path, each
with a report of its own.

A *union* takes the output of its first member that accepts the value.  The reports of
its members are never attached; when no member accepts, one issue carries their issues.
An immediate call tries one member after the other.  A deferred call runs all of them,
and a misuse of a member after the first accepting one has no effect.

An *intersection* attaches the reports of its members and merges their outputs from left
to right.  When it stops early, only the first refusing member reports.
-/

namespace ValueSchema

namespace Schema

/-! ## Unions -/

/-- Tries members in turn.  The answer is the output of the first one that accepts the
value, or the reports of all of them. -/
def tryInTurn (here : Path) (v : Value) (reports : List Report) :
    List Runner → Parser (Except (List Report) Value)
  | [] => return .error reports
  | m :: ms => do
      let (result, report) ← Parser.isolated here (m v)
      match Parser.accepted (← Parser.ofExcept result) report with
      | some w => return .ok w
      | none => tryInTurn here v (reports ++ [report]) ms
termination_by structural ms => ms

/-- The first output among the results of members that ran together, or the reports of all
of them. -/
def firstAccepted (reports : List Report) :
    List (Except Misuse (Option Value) × Report) → Parser (Except (List Report) Value)
  | [] => return .error reports
  | (result, report) :: rs => do
      match Parser.accepted (← Parser.ofExcept result) report with
      | some w => return .ok w
      | none => firstAccepted (reports ++ [report]) rs
termination_by structural rs => rs

/-- The output of the first member that accepts the value, or the reports of all
members. -/
def tryMembers (call : Call) (members : List Runner) (v : Value) :
    Parser (Except (List Report) Value) := do
  let here ← Parser.path
  match call.mode with
  | .immediate => tryInTurn here v [] members
  | .deferred => firstAccepted [] (← Parser.runAll (members.map fun m => (here, m v)))

/-- Parses a union. -/
def parseUnion (node : Schema) (call : Call) (members : List Runner) (v : Value) :
    Parser (Option Value) := do
  match ← tryMembers call members v with
  | .ok w => return some w
  | .error reports =>
      Parser.refuse call (.invalidUnion (reports.flatMap Report.allIssues))
        node.settings.typeMessage v

/-! ## Intersections -/

/-- Runs members in turn.  The answer is their outputs, or nothing after the first refusal
when the node stops early. -/
def runInTurn (abortsEarly : Bool) (here : Path) (v : Value) :
    List Runner → Parser (Option (List Value))
  | [] => return some []
  | m :: ms => do
      let (result, report) ← Parser.isolated here (m v)
      Parser.attach report
      match Parser.accepted (← Parser.ofExcept result) report with
      | some w => return (← runInTurn abortsEarly here v ms).map (w :: ·)
      | none => if abortsEarly then return none else runInTurn abortsEarly here v ms
termination_by structural ms => ms

/-- The outputs of members that ran together.  A misuse ends the call even after a
refusal. -/
def gather (abortsEarly failed : Bool) :
    List (Except Misuse (Option Value) × Report) → Parser (List Value)
  | [] => return []
  | (result, report) :: rs => do
      let out ← Parser.ofExcept result
      if failed && abortsEarly then
        Parser.discard report
        gather abortsEarly failed rs
      else
        Parser.attach report
        match Parser.accepted out report with
        | some w => return w :: (← gather abortsEarly failed rs)
        | none => gather abortsEarly true rs
termination_by structural rs => rs

/-- The outputs of the members, or nothing when the node stopped early. -/
def runMembers (call : Call) (abortsEarly : Bool) (members : List Runner) (v : Value) :
    Parser (Option (List Value)) := do
  let here ← Parser.path
  match call.mode with
  | .immediate => runInTurn abortsEarly here v members
  | .deferred =>
      let rs ← Parser.runAll (members.map fun m => (here, m v))
      return some (← gather abortsEarly false rs)

/-- The merge of outputs from left to right, if they do not conflict. -/
def mergeAll? (first : Value) : List Value → Option Value
  | [] => some first
  | v :: vs => (first.merge? v).bind (mergeAll? · vs)
termination_by structural vs => vs

/-- Parses an intersection.  Without members it accepts every value as it is. -/
def parseIntersection (node : Schema) (call : Call) (members : List Runner) (v : Value) :
    Parser (Option Value) := do
  match ← runMembers call (call.abortsEarly node.settings.abortEarly) members v with
  | none => return none
  | some outputs =>
      if ← Parser.isInvalid then return none
      match outputs with
      | [] => return some v
      | w :: ws =>
          match mergeAll? w ws with
          | some merged => return some merged
          | none => Parser.refuse call .invalidIntersection node.settings.typeMessage v

end Schema

end ValueSchema

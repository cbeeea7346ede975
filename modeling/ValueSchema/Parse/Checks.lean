import ValueSchema.Check.Evaluate
import ValueSchema.Parse.Parser

/-!
# Types and checks at a node

These are the steps that most nodes share.  `Schema.typeRefusal` is the issue of a value
of the wrong kind, which differs for a missing one, and `Schema.runChecks` applies the
checks of a node in their order, each to what the ones before it have made of the value.
-/

namespace ValueSchema

namespace Settings

/-- Why a value that is not of the expected kind is refused, and the message of the node
for it. -/
def typeRefusal (s : Settings) (expected : ValueKind) (v : Value) :
    Cause Issue × Option String :=
  if v.isUndefined then (.required, s.requiredMessage)
  else (.invalidType expected v.kind, s.typeMessage)

end Settings

namespace Schema

/-- Refuses a value that is not of the expected kind. -/
def refuseType (node : Schema) (call : Call) (expected : ValueKind) (v : Value) :
    Parser (Option Value) :=
  let (cause, own) := node.settings.typeRefusal expected v
  Parser.refuse call cause own v

/-- Applies checks to a value.  The answer is whether all of them passed, and the value
that they leave. -/
def runEntries (node : Schema) (call : Call) (abortsEarly : Bool) :
    List CheckEntry → Value → Parser (Bool × Value)
  | [], v => return (true, v)
  | e :: es, v => do
      if e.kind = .custom then Parser.countCall
      match e.check.evaluate v with
      | .pass => runEntries node call abortsEarly es v
      | .rewrite w => runEntries node call abortsEarly es w
      | .fail received =>
          Parser.raise call (node.kind.checkCause ⟨e.kind, e.check.expected, received⟩) e.message v
          if abortsEarly then return (false, v)
          else return (false, (← runEntries node call abortsEarly es v).2)
termination_by structural es => es

/-- Applies the checks of a node whose kind is selected. -/
def runChecks (node : Schema) (call : Call) (select : CheckKind → Bool) (v : Value) :
    Parser (Bool × Value) :=
  runEntries node call (call.abortsEarly node.settings.abortEarly)
    (node.checks.entries.filter fun e => select e.kind) v

/-- Gives a value as the output if it passes the selected checks. -/
def finishChecks (node : Schema) (call : Call) (select : CheckKind → Bool) (v : Value) :
    Parser (Option Value) := do
  let (ok, w) ← node.runChecks call select v
  return if ok then some w else none

end Schema

end ValueSchema

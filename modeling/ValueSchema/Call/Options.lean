import ValueSchema.Call.Cache
import ValueSchema.Issue.Message

/-!
# Options of a call

`Options` are what a caller tells one call.  Everything is optional and wins over what
the nodes of the schema say.  The arena is what lazy nodes are looked up in.  The cache
is the caller's, and a call gives it back with what it remembered.

A `Call` is what every step of a call can see: the options and the `Mode`.  An immediate
call never waits.  A deferred call may wait, and starts all inner steps of a node
together.
-/

namespace ValueSchema

/-- What a caller tells a call. -/
structure Options where
  /-- Whether nodes stop at their first issue. -/
  abortEarly : Option Bool := none
  /-- Whether the call is traced.  It has no effect on the outcome. -/
  debug : Bool := false
  /-- The caller's sources of messages. -/
  messages : Resolvers := {}
  /-- The definitions for lazy nodes. -/
  arena : Option Arena := none
  /-- The remembered validations. -/
  cache : Option Cache := none

namespace Options

/-- A truth value as options are written out. -/
private def boolText (b : Bool) : String := if b then "true" else "false"

/-- Options on one line, for inspection. -/
def summary (o : Options) : String :=
  let abortEarly := match o.abortEarly with
    | none => "None"
    | some b => "Some(" ++ boolText b ++ ")"
  "ParseOptions \x7b abort_early: " ++ abortEarly
    ++ ", debug: " ++ boolText o.debug
    ++ ", error_map: " ++ boolText o.messages.first.isSome
    ++ ", default_error_map: " ++ boolText o.messages.fallback.isSome
    ++ ", arena: " ++ boolText o.arena.isSome
    ++ ", cache: " ++ boolText o.cache.isSome ++ " \x7d"

end Options

/-- How a call runs. -/
inductive Mode where
  /-- One step after another, without waiting. -/
  | immediate
  /-- The inner steps of a node together. -/
  | deferred
deriving DecidableEq, Repr

/-- What every step of a call can see. -/
structure Call where
  /-- The options. -/
  options : Options := {}
  /-- The mode. -/
  mode : Mode := .immediate

namespace Call

/-- Whether a node stops at its first issue: what the options say, or else the node's own
setting, or else not. -/
def abortsEarly (c : Call) (own : Option Bool) : Bool := (c.options.abortEarly.or own).getD false

/-- The issue of a cause at a path.  `own` is the schema's own message. -/
def issue (c : Call) (cause : Cause Issue) (path : Path) (own : Option String) (data : Value) :
    Issue :=
  c.options.messages.resolve cause path own data

end Call

end ValueSchema

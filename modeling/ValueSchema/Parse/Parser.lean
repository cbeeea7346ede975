import ValueSchema.Call.Options
import ValueSchema.Context.Report

/-!
# Parsers

A `Parser` is a step of a call.  It runs at one place of a value, adds to the report of
that place, counts the functions of the user's that it calls, and ends with a result or
with a misuse.  The report and the count survive a misuse.

`Parser.isolated` runs a step at another place, with a report of its own that nothing
else has seen yet.  What happens to that report is up to the caller: it is attached, it
is discarded, or its issues are read.
-/

namespace ValueSchema

/-- What a step of a call adds to. -/
structure Progress where
  /-- The report of the current place. -/
  report : Report
  /-- How many functions of the user's were called. -/
  calls : Nat := 0

/-- A step of a call. -/
def Parser (α : Type) := Progress → Except Misuse α × Progress

/-- A step that takes a value and gives an output, or nothing if it refuses the value. -/
abbrev Runner := Value → Parser (Option Value)

namespace Parser

variable {α β : Type}

instance : Monad Parser where
  pure a := fun p => (.ok a, p)
  bind x f := fun p =>
    match x p with
    | (.ok a, p') => f a p'
    | (.error e, p') => (.error e, p')

/-- Ends with a misuse. -/
def misuse (e : Misuse) : Parser α := fun p => (.error e, p)

/-- Takes up a result. -/
def ofExcept : Except Misuse α → Parser α
  | .ok a => pure a
  | .error e => misuse e

/-- The path of the current place. -/
def path : Parser Path := fun p => (.ok p.report.path, p)

/-- Whether the current place, or something below it, is marked invalid. -/
def isInvalid : Parser Bool := fun p => (.ok p.report.isInvalid, p)

/-- Counts a call of a function of the user's. -/
def countCall : Parser Unit := fun p => (.ok (), { p with calls := p.calls + 1 })

/-- Changes the report of the current place. -/
def modifyReport (f : Report → Report) : Parser Unit :=
  fun p => (.ok (), { p with report := f p.report })

/-- Adds a report below the current place. -/
def attach (below : Report) : Parser Unit := modifyReport (·.attach below)

/-- Discards a report below the current place.  Its mark stays. -/
def discard (below : Report) : Parser Unit := modifyReport (·.noteMark below)

/-- Raises an issue at the current place. -/
def raise (call : Call) (cause : Cause Issue) (own : Option String) (data : Value) : Parser Unit :=
  modifyReport fun r => r.raise (call.issue cause r.path own data)

/-- Raises an issue and refuses the value. -/
def refuse (call : Call) (cause : Cause Issue) (own : Option String) (data : Value) :
    Parser (Option α) := do
  raise call cause own data
  return none

/-- Runs a step at a path with a report of its own. -/
def isolated (path : Path) (x : Parser α) : Parser (Except Misuse α × Report) := fun p =>
  let (result, q) := x { report := { path := path }, calls := p.calls }
  (.ok (result, q.report), { p with calls := q.calls })

/-- The output of a step whose report is not invalid. -/
def accepted (out : Option Value) (report : Report) : Option Value :=
  if report.isInvalid then none else out

end Parser

end ValueSchema

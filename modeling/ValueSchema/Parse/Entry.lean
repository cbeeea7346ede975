import ValueSchema.Parse.Run

/-!
# Calls

`Schema.safeParse` is a call: it parses a value with a schema and gives back a `Reply`.
A call succeeds when the schema gives an output and nothing is marked invalid.  A value
may be refused without an issue, and then one issue says so.

A call with a cache first looks there, and remembers what it finds out itself.  A misuse
is never remembered.  `Schema.parse` is the form for callers who treat a refused value as
an error.
-/

namespace ValueSchema

/-- What a call gives back. -/
structure Reply where
  /-- The outcome. -/
  result : Except Misuse Validation
  /-- How many functions of the user's were called. -/
  calls : Nat := 0
  /-- The caller's cache after the call. -/
  cache : Option Cache := none

/-- Why a call gives no output. -/
inductive ParseError where
  /-- The value is refused. -/
  | invalid (issues : Issues)
  /-- The schema was used wrongly. -/
  | misuse (e : Misuse)

/-- The message of an error. -/
def ParseError.message : ParseError → String
  | .invalid issues => issues.text
  | .misuse e => e.message

/-- The output of an outcome, or the error. -/
def Validation.toExcept : Except Misuse Validation → Except ParseError Value
  | .ok (.success v) => .ok v
  | .ok (.failure issues) => .error (.invalid issues)
  | .error e => .error (.misuse e)

/-- The issue of a value that is refused without one. -/
def Issue.unexplained (path : Path) : Issue :=
  ⟨.custom none, path, "validation failed", .undefined⟩

/-- The validation that a report and an output amount to. -/
def Report.conclude (r : Report) (out : Option Value) : Validation :=
  match out with
  | some v => if r.isValid then .success v else .failure (issuesOf r)
  | none => .failure (issuesOf r)
where
  /-- The issues of the report, or the one that stands for none. -/
  issuesOf (r : Report) : Issues := (Issues.ofList? r.allIssues).getD ⟨.unexplained r.path, []⟩

namespace Schema

/-- Parses a value, without a cache. -/
def parseFresh (s : Schema) (call : Call) (v : Value) : Except Misuse Validation × Nat :=
  let (result, p) := s.run call v { report := { path := .root } }
  (result.map p.report.conclude, p.calls)

/-- Parses a value. -/
def safeParse (s : Schema) (mode : Mode) (options : Options) (v : Value) : Reply :=
  match options.cache.bind (·.find? s.id v) with
  | some validation => { result := .ok validation, cache := options.cache }
  | none =>
      let (result, calls) := s.parseFresh ⟨options, mode⟩ v
      let cache := match result with
        | .ok validation => options.cache.map (·.insert s.id v validation)
        | .error _ => options.cache
      { result := result, calls := calls, cache := cache }

/-- Parses a value, where a refused value is an error. -/
def parse (s : Schema) (mode : Mode) (options : Options) (v : Value) : Except ParseError Value :=
  Validation.toExcept (s.safeParse mode options v).result

/-- Parses several values in immediate calls that share a cache.  The outcomes are in the
order of the values. -/
def safeParseBatch (s : Schema) (options : Options) :
    List Value → List (Except Misuse Validation) × Option Cache
  | [] => ([], options.cache)
  | v :: vs =>
      let reply := s.safeParse .immediate options v
      let (results, cache) := s.safeParseBatch { options with cache := reply.cache } vs
      (reply.result :: results, cache)
termination_by structural vs => vs

end Schema

namespace Arena

/-- Options with an arena and nothing else. -/
def toOptions (a : Arena) : Options := { arena := some a }

/-- Parses a value with a definition of an arena. -/
def safeParse (a : Arena) (mode : Mode) (id : SchemaId) (v : Value) : Except Misuse Validation :=
  match a.get? id with
  | some s => (s.safeParse mode a.toOptions v).result
  | none => .error (.undefinedId id)

end Arena

end ValueSchema

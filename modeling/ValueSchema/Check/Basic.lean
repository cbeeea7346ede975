import ValueSchema.Regex.Reader
import ValueSchema.Regex.Search
import ValueSchema.Value.Json

/-!
# Checks

A `Check` is a rule that a value of the right type has to meet.  `Check.kind` names
the rule and `Check.expected` is what an issue reports as expected.  Some checks
rewrite a value and never refuse one: the converting forms of `unique` and `sorted`,
and `compact`.
-/

namespace ValueSchema

/-- The kinds of checks. -/
inductive CheckKind where
  | min | max | range | length | size | integer | precision | multiple | finite | safe
  | pattern | startsWith | endsWith | includes | email | url | uuid
  | unique | sorted | compact | custom
deriving DecidableEq, Repr

namespace CheckKind

/-- The name of a kind in messages and payloads. -/
def name : CheckKind → String
  | .min => "min"
  | .max => "max"
  | .range => "range"
  | .length => "length"
  | .size => "size"
  | .integer => "integer"
  | .precision => "precision"
  | .multiple => "multiple"
  | .finite => "finite"
  | .safe => "safe"
  | .pattern => "pattern"
  | .startsWith => "starts_with"
  | .endsWith => "ends_with"
  | .includes => "includes"
  | .email => "email"
  | .url => "url"
  | .uuid => "uuid"
  | .unique => "unique"
  | .sorted => "sorted"
  | .compact => "compact"
  | .custom => "custom"

/-- All kinds. -/
def all : List CheckKind :=
  [.min, .max, .range, .length, .size, .integer, .precision, .multiple, .finite, .safe,
   .pattern, .startsWith, .endsWith, .includes, .email, .url, .uuid,
   .unique, .sorted, .compact, .custom]

/-- The kind of a name. -/
def ofName? (name : String) : Option CheckKind := all.find? (·.name = name)

/-- Whether the check measures a container, so that it runs before the elements are
looked at. -/
def isSize : CheckKind → Bool
  | .min => true
  | .max => true
  | .length => true
  | .size => true
  | _ => false

end CheckKind

/-- A regular expression, in its written form and as an automaton. -/
structure Pattern where
  /-- The written form. -/
  source : String
  /-- The automaton. -/
  automaton : Regex.Automaton

namespace Pattern

/-- The pattern of a written form, if it is well formed and its automaton is not too
large. -/
def ofText? (source : String) : Option Pattern := do
  let r ← Regex.ofText? source
  let a ← r.automaton?
  return ⟨source, a⟩

/-- Whether some part of a text matches. -/
def isMatch (p : Pattern) (text : String) : Bool := p.automaton.isMatch text

end Pattern

/-- A rule for values. -/
inductive Check where
  /-- A lower bound of the measure. -/
  | min (bound : Value) (inclusive : Bool)
  /-- An upper bound of the measure. -/
  | max (bound : Value) (inclusive : Bool)
  /-- Both bounds of the measure, inclusive. -/
  | range (low high : Value)
  /-- The exact measure of a text, a buffer or an array. -/
  | length (n : Nat)
  /-- The exact number of members of a set. -/
  | size (n : Nat)
  /-- A whole number. -/
  | integer
  /-- A bound of the number of digits after the point. -/
  | precision (digits : Nat)
  /-- A multiple of a number. -/
  | multiple (step : Value)
  /-- A number that is not infinite. -/
  | finite
  /-- A number between the bounds within which all integers are doubles. -/
  | safe
  /-- A text that a pattern matches. -/
  | pattern (p : Pattern)
  /-- A text with a given start. -/
  | startsWith (s : String)
  /-- A text with a given end. -/
  | endsWith (s : String)
  /-- A text with a given part. -/
  | includes (s : String)
  /-- An email address. -/
  | email
  /-- An absolute address of a resource. -/
  | url
  /-- A universally unique identifier. -/
  | uuid
  /-- No two items alike.  When it converts, later ones are dropped. -/
  | unique (same : Option (Value → Value → Bool)) (converts : Bool)
  /-- Items in ascending order.  When it converts, they are sorted. -/
  | sorted (order : Option (Value → Value → Ordering)) (converts : Bool)
  /-- Null and missing items are dropped. -/
  | compact
  /-- A named predicate. -/
  | custom (name : String) (accepts : Value → Bool)

namespace Check

/-- The kind of a check. -/
def kind : Check → CheckKind
  | .min .. => .min
  | .max .. => .max
  | .range .. => .range
  | .length _ => .length
  | .size _ => .size
  | .integer => .integer
  | .precision _ => .precision
  | .multiple _ => .multiple
  | .finite => .finite
  | .safe => .safe
  | .pattern _ => .pattern
  | .startsWith _ => .startsWith
  | .endsWith _ => .endsWith
  | .includes _ => .includes
  | .email => .email
  | .url => .url
  | .uuid => .uuid
  | .unique .. => .unique
  | .sorted .. => .sorted
  | .compact => .compact
  | .custom .. => .custom

/-- A bound as issues report it. -/
def boundPayload (bound : Value) (inclusive : Bool) : Value :=
  .record [("value", bound), ("inclusive", .bool inclusive)]

/-- What a failed check reports as expected. -/
def expected : Check → Value
  | .min bound inclusive => boundPayload bound inclusive
  | .max bound inclusive => boundPayload bound inclusive
  | .range low high => .record [("min", low), ("max", high)]
  | .length n => .ofNat n
  | .size n => .ofNat n
  | .precision digits => .ofNat digits
  | .multiple step => step
  | .pattern p => .string p.source
  | .startsWith s => .string s
  | .endsWith s => .string s
  | .includes s => .string s
  | .custom name _ => .string name
  | .sorted .. => .string "ascending"
  | .integer => .bool true
  | .finite => .bool true
  | .safe => .bool true
  | .email => .bool true
  | .url => .bool true
  | .uuid => .bool true
  | .unique .. => .bool true
  | .compact => .bool true

/-- A check on one line, for inspection. -/
def summary (c : Check) : String := "Check::" ++ c.kind.name ++ "(" ++ c.expected.text ++ ")"

end Check

end ValueSchema

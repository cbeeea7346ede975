import ValueSchema.Value.Basic

/-!
# Paths

A `Path` leads from the root of a datum to one of the values in it.  Its segments
are fields of objects and indices of arrays, sets and tuples.  Schemas that wrap
another schema add no segment, so a path follows the datum and not the schema.

A path has two texts.  `Path.text` is the notation of programs, `users[0].email`,
and `Path.pointer` the JSON pointer `/users/0/email`, where a tilde in a field is
written `~0` and a slash `~1`.
-/

namespace ValueSchema

/-- One step of a path. -/
inductive Segment where
  /-- A field of an object. -/
  | field (name : String)
  /-- A position in a list. -/
  | index (n : Nat)
deriving DecidableEq, Repr

/-- A segment on its own. -/
def Segment.text : Segment → String
  | .field name => name
  | .index n => toString n

/-- A segment as a value: a string or a number. -/
def Segment.toValue : Segment → Value
  | .field name => .string name
  | .index n => .ofNat n

/-- The way to a value inside a datum. -/
structure Path where
  /-- The steps, outermost first. -/
  segments : List Segment
deriving DecidableEq, Repr

namespace Path

/-- The path to the datum itself. -/
def root : Path := ⟨[]⟩

/-- A path one segment longer. -/
def push (p : Path) (s : Segment) : Path := ⟨p.segments ++ [s]⟩

/-- The path without its last segment.  The root has no parent. -/
def parent? (p : Path) : Option Path :=
  if p.segments = [] then none else some ⟨p.segments.dropLast⟩

/-- The last segment.  The root has none. -/
def last? (p : Path) : Option Segment := p.segments.getLast?

/-- Whether the path is the root. -/
def isRoot (p : Path) : Bool := p.segments.isEmpty

/-- The number of segments. -/
def length (p : Path) : Nat := p.segments.length

/-- A path as the array of its segments. -/
def toValue (p : Path) : Value := .array (p.segments.map Segment.toValue)

/-- The text of segments that follow others. -/
def tailText : List Segment → String
  | [] => ""
  | .field name :: r => "." ++ name ++ tailText r
  | .index n :: r => "[" ++ toString n ++ "]" ++ tailText r

/-- A path with dots before fields, except in front, and brackets around indices. -/
def text (p : Path) : String :=
  match p.segments with
  | .field name :: r => name ++ tailText r
  | r => tailText r

/-- A character of a field inside a pointer. -/
def escapeChar (c : Char) : List Char :=
  if c = '~' then ['~', '0'] else if c = '/' then ['~', '1'] else [c]

/-- The characters of a segment inside a pointer. -/
def pointerToken : Segment → List Char
  | .field name => name.toList.flatMap escapeChar
  | .index n => (toString n).toList

/-- The JSON pointer of a path. -/
def pointer (p : Path) : String :=
  String.ofList (p.segments.flatMap fun s => '/' :: pointerToken s)

example : text ⟨[.field "users", .index 0, .field "email"]⟩ = "users[0].email" := by decide +kernel
example : pointer ⟨[.field "a/b~", .index 12]⟩ = "/a~1b~0/12" := by decide +kernel

end Path

end ValueSchema

import ValueSchema.Issue.Basic

/-!
# Messages of issues

`Cause.message` is the message an issue has when nobody gives another one.  A failed
check names its unit: characters of a text, items of an array, a set or a tuple,
entries of a record, bytes of a buffer, and none for numbers and dates.

`Resolvers.resolve` chooses among all messages for an issue: first that of the
caller's map, then the schema's own, then that of the caller's default map, and last
the message of the cause.  A map sees the issue with the message of the cause.
-/

namespace ValueSchema

/-- The unit in which the measure of a subject is counted, with a space in front. -/
def Subject.unit : Subject → String
  | .string => " characters"
  | .array => " items"
  | .set => " items"
  | .tuple => " items"
  | .record => " entries"
  | .buffer => " bytes"
  | .number => ""
  | .bigint => ""
  | .date => ""

namespace CheckFailure

/-- An entry of what the check expects, missing when absent. -/
def detail (f : CheckFailure) (key : String) : Value := (f.expected.get? key).getD .undefined

/-- Whether the bound of the check is itself allowed. -/
def isInclusive (f : CheckFailure) : Bool :=
  ((f.expected.get? "inclusive").bind Value.asBool?).getD true

/-- The message of a failed check.  `unit` follows a measure. -/
def message (f : CheckFailure) (unit : String) : String :=
  match f.check with
  | .min =>
      "must be " ++ (if f.isInclusive then "at least" else "more than") ++ " "
        ++ (f.detail "value").text ++ unit
  | .max =>
      "must be " ++ (if f.isInclusive then "at most" else "less than") ++ " "
        ++ (f.detail "value").text ++ unit
  | .range =>
      "must be between " ++ (f.detail "min").text ++ " and " ++ (f.detail "max").text ++ unit
  | .length => "must contain exactly " ++ f.expected.text ++ unit
  | .size => "must contain exactly " ++ f.expected.text ++ unit
  | .integer => "must be an integer"
  | .precision => "must have at most " ++ f.expected.text ++ " decimal places"
  | .multiple => "must be a multiple of " ++ f.expected.text
  | .finite => "must be finite"
  | .safe => "must be a safe integer"
  | .pattern => "must match pattern " ++ f.expected.bareText
  | .startsWith => "must start with " ++ f.expected.bareText
  | .endsWith => "must end with " ++ f.expected.bareText
  | .includes => "must include " ++ f.expected.bareText
  | .email => "must be a valid email address"
  | .url => "must be a valid URL"
  | .uuid => "must be a valid UUID"
  | .unique => "duplicate item " ++ f.received.text
  | .sorted => "items out of order: " ++ f.received.text
  | .compact => "must not contain empty items"
  | .custom => "failed check " ++ f.expected.bareText

end CheckFailure

/-- The name of a failed named check that a payload reports, if it reports one. -/
def failedCheckName? (payload : Value) : Option Value :=
  match payload.get? "check" with
  | some (.string "custom") => some ((payload.get? "expected").getD .undefined)
  | _ => none

/-- The message of a cause. -/
def Cause.message {ι : Type} : Cause ι → String
  | .required => "required"
  | .invalidType expected received =>
      "expected " ++ expected.name ++ ", received " ++ received.name
  | .invalidLiteral expected received =>
      "expected literal " ++ expected.text ++ ", received " ++ received.text
  | .invalidEnumValue expected received =>
      "expected one of [" ++ ", ".intercalate (expected.map Value.text) ++ "], received "
        ++ received.text
  | .missingKeys keys => "missing keys: " ++ ", ".intercalate keys
  | .unrecognizedKeys keys => "unrecognized keys: " ++ ", ".intercalate keys
  | .invalidUnion _ => "no union member matched"
  | .invalidIntersection => "intersection results could not be merged"
  | .failedCheck subject failure => failure.message subject.unit
  | .forbidden => "value is forbidden"
  | .custom payload =>
      match payload.bind failedCheckName? with
      | some name => "failed check " ++ name.bareText
      | none => "invalid input"

/-- A caller's source of messages.  It answers some issues and leaves the others to
the next source. -/
abbrev MessageMap := Issue → Option String

/-- The caller's sources of messages. -/
structure Resolvers where
  /-- Asked before the schema's own message. -/
  first : Option MessageMap := none
  /-- Asked after the schema's own message. -/
  fallback : Option MessageMap := none

/-- The issue of a cause at a path, with its message chosen.  `own` is the schema's own
message. -/
def Resolvers.resolve (r : Resolvers) (cause : Cause Issue) (path : Path) (own : Option String)
    (data : Value) : Issue :=
  let issue : Issue := ⟨cause, path, cause.message, data⟩
  let chosen := (r.first.bind (· issue)).or (own.or (r.fallback.bind (· issue)))
  { issue with message := chosen.getD issue.message }

end ValueSchema

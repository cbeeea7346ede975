import ValueSchema.Check.Basic
import ValueSchema.Path

/-!
# Issues

An `Issue` is one problem found in a value: its cause, the path to the offending
value, a message, and that value.  The causes form a closed list, `Cause`, which is
generic in the issues that a failed union carries, so that an issue can hold the
issues of all members.

Programs tell issues apart by `Cause.code` and read the details off the payload,
`Issue.payload`.
-/

namespace ValueSchema

/-- The details of a failed check. -/
structure CheckFailure where
  /-- The kind of the check. -/
  check : CheckKind
  /-- What the check expects. -/
  expected : Value
  /-- The measure or the value that failed. -/
  received : Value

/-- The details of a failed check as a value. -/
def CheckFailure.toValue (f : CheckFailure) : Value :=
  .record [("check", .string f.check.name), ("expected", f.expected), ("received", f.received)]

/-- The types of values whose failed checks have a code of their own. -/
inductive Subject where
  | string | number | bigint | date | array | set | tuple | record | buffer
deriving DecidableEq, Repr

/-- The name of a subject in codes. -/
def Subject.name : Subject → String
  | .string => "string"
  | .number => "number"
  | .bigint => "bigint"
  | .date => "date"
  | .array => "array"
  | .set => "set"
  | .tuple => "tuple"
  | .record => "record"
  | .buffer => "buffer"

/-- All subjects. -/
def Subject.all : List Subject :=
  [.string, .number, .bigint, .date, .array, .set, .tuple, .record, .buffer]

/-- The subject of a name. -/
def Subject.ofName? (name : String) : Option Subject := all.find? (·.name = name)

/-- Why a value was refused.  `ι` is the type of the issues of a failed union. -/
inductive Cause (ι : Type) where
  /-- The value is missing. -/
  | required
  /-- The value has another kind. -/
  | invalidType (expected received : ValueKind)
  /-- The value is not the literal. -/
  | invalidLiteral (expected received : Value)
  /-- The value is none of the listed ones. -/
  | invalidEnumValue (expected : List Value) (received : Value)
  /-- Declared keys are absent. -/
  | missingKeys (keys : List String)
  /-- Keys are present that were not declared. -/
  | unrecognizedKeys (keys : List String)
  /-- No member of a union accepts the value. -/
  | invalidUnion (issues : List ι)
  /-- The outputs of the members of an intersection conflict. -/
  | invalidIntersection
  /-- A check failed. -/
  | failedCheck (subject : Subject) (failure : CheckFailure)
  /-- No value may be present. -/
  | forbidden
  /-- A user's rule failed. -/
  | custom (payload : Option Value)

/-- A problem found in a value. -/
structure Issue where
  /-- Why the value was refused. -/
  cause : Cause Issue
  /-- Where the value is. -/
  path : Path
  /-- What a person reads. -/
  message : String
  /-- The refused value. -/
  data : Value

instance {ι : Type} : Inhabited (Cause ι) := ⟨.required⟩

instance : Inhabited Issue := ⟨.required, .root, "", .undefined⟩

/-- The code of a cause. -/
def Cause.code {ι : Type} : Cause ι → String
  | .required => "required"
  | .invalidType .. => "invalid_type"
  | .invalidLiteral .. => "invalid_literal"
  | .invalidEnumValue .. => "invalid_enum_value"
  | .missingKeys _ => "missing_keys"
  | .unrecognizedKeys _ => "unrecognized_keys"
  | .invalidUnion _ => "invalid_union"
  | .invalidIntersection => "invalid_intersection"
  | .failedCheck subject _ => "invalid_" ++ subject.name
  | .forbidden => "forbidden"
  | .custom _ => "custom"

/-- The failed check of a cause, if there is one. -/
def Cause.checkFailure? {ι : Type} : Cause ι → Option CheckFailure
  | .failedCheck _ failure => some failure
  | _ => none

/-- The details of a cause as a value.  `render` writes an issue of a failed union. -/
def Cause.payload {ι : Type} (render : List ι → List Value) : Cause ι → Value
  | .invalidType expected received =>
      .record [("expected", .string expected.name), ("received", .string received.name)]
  | .invalidLiteral expected received => .record [("expected", expected), ("received", received)]
  | .invalidEnumValue expected received =>
      .record [("expected", .record [("values", .array expected)]), ("received", received)]
  | .missingKeys keys => .record [("keys", .array (keys.map .string))]
  | .unrecognizedKeys keys => .record [("keys", .array (keys.map .string))]
  | .invalidUnion issues => .record [("issues", .array (render issues))]
  | .failedCheck _ failure => failure.toValue
  | .custom (some payload) => payload
  | _ => .record []

namespace Issue

/-- The code of an issue. -/
def code (i : Issue) : String := i.cause.code

mutual

/-- An issue as a value: its code, path, message and payload. -/
def toValue : Issue → Value
  | ⟨cause, path, message, _⟩ =>
      let payload := match cause with
        | .invalidUnion issues => .record [("issues", .array (listToValues issues))]
        | c => c.payload fun _ => []
      .record [("code", .string cause.code), ("path", path.toValue),
        ("message", .string message), ("payload", payload)]

/-- Issues as values. -/
def listToValues : List Issue → List Value
  | [] => []
  | i :: is => toValue i :: listToValues is

end

/-- The details of the cause of an issue. -/
def payload (i : Issue) : Value := i.cause.payload listToValues

/-- An issue on one line: where it is and its message. -/
def text (i : Issue) : String :=
  (if i.path.isRoot then "(root)" else i.path.text) ++ ": " ++ i.message

theorem listToValues_eq_map (is : List Issue) : listToValues is = is.map toValue := by
  induction is with
  | nil => rfl
  | cons i is ih => rw [listToValues, List.map_cons, ih]

end Issue

/-- The issues of a refused value, at least one. -/
structure Issues where
  /-- The first issue. -/
  head : Issue
  /-- The other ones, in order. -/
  tail : List Issue

namespace Issues

/-- The issues of a list that is not empty. -/
def ofList? : List Issue → Option Issues
  | [] => none
  | i :: is => some ⟨i, is⟩

/-- The issues in order. -/
def toList (is : Issues) : List Issue := is.head :: is.tail

/-- One list of issues after another. -/
def append (is js : Issues) : Issues := ⟨is.head, is.tail ++ js.toList⟩

/-- The number of issues. -/
def length (is : Issues) : Nat := is.toList.length

/-- The issues at a path. -/
def atPath (is : Issues) (p : Path) : List Issue := is.toList.filter (·.path = p)

/-- The issues with a code. -/
def withCode (is : Issues) (code : String) : List Issue := is.toList.filter (·.code = code)

/-- The issues as an array of values. -/
def toValue (is : Issues) : Value := .array (Issue.listToValues is.toList)

/-- The lines of a report, each with the number of its issue. -/
def lines (n : Nat) : List Issue → String
  | [] => ""
  | i :: is => "  " ++ toString n ++ ". " ++ i.text ++ "\n" ++ lines (n + 1) is
termination_by structural is => is

/-- A report: the number of issues, then a line for each. -/
def text (is : Issues) : String :=
  "Validation failed with " ++ toString is.length ++ " issue(s):\n" ++ lines 1 is.toList

@[simp] theorem toList_append (is js : Issues) : (is.append js).toList = is.toList ++ js.toList :=
  rfl

end Issues

end ValueSchema

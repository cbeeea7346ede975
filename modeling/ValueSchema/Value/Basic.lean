import ValueSchema.Calendar.Instant
import ValueSchema.Double.Basic
import ValueSchema.Entries
import ValueSchema.Int128

/-!
# Values

A `Value` is a datum that schemas accept or refuse.  Values are richer than JSON
documents: a missing value differs from null, and there are big integers, dates,
byte buffers and sets.  A set keeps its members in the order of insertion and
does not drop equal ones by itself.

`Value.kind` is the coarse classification that type errors report.  There what is
not a number is a kind of its own.
-/

namespace ValueSchema

/-- A datum. -/
inductive Value where
  /-- The missing value: an absent key or an omitted argument. -/
  | undefined
  /-- The null value. -/
  | null
  /-- A truth value. -/
  | bool (b : Bool)
  /-- A double precision number. -/
  | number (x : Double)
  /-- A big integer. -/
  | bigint (n : Int128)
  /-- A text. -/
  | string (s : String)
  /-- A point of time. -/
  | date (t : Instant)
  /-- Bytes. -/
  | buffer (bytes : List UInt8)
  /-- A list of values. -/
  | array (items : List Value)
  /-- The members of a set, in the order of insertion. -/
  | set (items : List Value)
  /-- Values under keys. -/
  | object (entries : Entries Value)

/-- The coarse kinds of values. -/
inductive ValueKind where
  | undefined | null | boolean | number | nan | bigint | string | date | buffer | array | set
  | object
deriving DecidableEq, Repr

/-- The name of a kind in messages and payloads. -/
def ValueKind.name : ValueKind → String
  | .undefined => "undefined"
  | .null => "null"
  | .boolean => "boolean"
  | .number => "number"
  | .nan => "nan"
  | .bigint => "bigint"
  | .string => "string"
  | .date => "date"
  | .buffer => "buffer"
  | .array => "array"
  | .set => "set"
  | .object => "object"

/-- All kinds. -/
def ValueKind.all : List ValueKind :=
  [.undefined, .null, .boolean, .number, .nan, .bigint, .string, .date, .buffer, .array, .set,
   .object]

/-- The kind of a name. -/
def ValueKind.ofName? (name : String) : Option ValueKind := all.find? (·.name = name)

namespace Value

instance : Inhabited Value := ⟨.undefined⟩

/-- A natural number as a value. -/
def ofNat (n : Nat) : Value := .number (Double.ofNat n)

/-- An object with the given entries, whose keys are distinct. -/
def record (entries : List (String × Value)) : Value := .object ⟨entries⟩

/-- The kind of a value. -/
def kind : Value → ValueKind
  | .undefined => .undefined
  | .null => .null
  | .bool _ => .boolean
  | .number x => if x.isNaN then .nan else .number
  | .bigint _ => .bigint
  | .string _ => .string
  | .date _ => .date
  | .buffer _ => .buffer
  | .array _ => .array
  | .set _ => .set
  | .object _ => .object

/-- Whether the value is the missing one. -/
def isUndefined : Value → Bool
  | .undefined => true
  | _ => false

/-- Whether the value is null. -/
def isNull : Value → Bool
  | .null => true
  | _ => false

/-- The text of a string. -/
def asString? : Value → Option String
  | .string s => some s
  | _ => none

/-- The number of a number. -/
def asNumber? : Value → Option Double
  | .number x => some x
  | _ => none

/-- The truth value of a boolean. -/
def asBool? : Value → Option Bool
  | .bool b => some b
  | _ => none

/-- The elements of an array or the members of a set. -/
def asItems? : Value → Option (List Value)
  | .array items => some items
  | .set items => some items
  | _ => none

/-- The entries of an object. -/
def asEntries? : Value → Option (Entries Value)
  | .object entries => some entries
  | _ => none

/-- The elements of an array or the members of a set, and none of other values. -/
def items (v : Value) : List Value := v.asItems?.getD []

/-- The value under a key of an object. -/
def get? (v : Value) (key : String) : Option Value := v.asEntries?.bind (·.get? key)

/-- The size of a container: characters, elements, members, bytes or entries. -/
def size? : Value → Option Nat
  | .string s => some s.length
  | .array items => some items.length
  | .set items => some items.length
  | .buffer bytes => some bytes.length
  | .object entries => some entries.size
  | _ => none

/-- Whether the value counts as true.  The missing value, null, false, the zeros,
what is not a number and the empty text do not. -/
def isTruthy : Value → Bool
  | .undefined => false
  | .null => false
  | .bool b => b
  | .number x => !x.isZero && !x.isNaN
  | .bigint n => n.val ≠ 0
  | .string s => !s.isEmpty
  | _ => true

end Value

end ValueSchema

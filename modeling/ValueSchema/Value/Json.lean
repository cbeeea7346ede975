import ValueSchema.Json
import ValueSchema.Value.Equality

/-!
# Values as JSON documents and as text

`Value.toJson` writes a value as a document.  The missing value becomes null and
is dropped from objects.  A number is a whole number of the document when it is
integral and below `2 ^ 53`, and null when it is not finite.  A big integer beyond
64 bits becomes a string, a date its text and a buffer the array of its bytes.
`Value.ofJson` reads a document back.  Dates, buffers and sets do not come back as
such, and every number becomes a double.

`Value.text` is the text of a value in messages: that of its document, except that
the missing value, big integers and sets have forms of their own.
-/

namespace ValueSchema

namespace Value

/-- The bound below which whole numbers are written without a point. -/
def exactBound : Nat := 1 <<< 53

/-- A number as a document. -/
def numberToJson (x : Double) : Json :=
  match x.toInt? with
  | some n => if n.natAbs < exactBound then .integer n else .number x
  | none => if x.isFinite then .number x else .null

/-- A big integer as a document: a whole number up to 64 bits, a string beyond. -/
def bigintToJson (n : Int128) : Json :=
  if n.fits64 then .integer n.val else .string (toString n.val)

mutual

/-- A value as a document. -/
def toJson : Value → Json
  | .undefined => .null
  | .null => .null
  | .bool b => .bool b
  | .number x => numberToJson x
  | .bigint n => bigintToJson n
  | .string s => .string s
  | .date t => .string t.toText
  | .buffer bytes => .array (bytes.map fun b => .integer b.toNat)
  | .array items => .array (itemsToJson items)
  | .set items => .array (itemsToJson items)
  | .object ⟨entries⟩ => .object ⟨entriesToJson entries⟩

/-- The documents of a list of values. -/
def itemsToJson : List Value → List Json
  | [] => []
  | v :: items => toJson v :: itemsToJson items

/-- The documents of the entries that are not missing. -/
def entriesToJson : List (String × Value) → List (String × Json)
  | [] => []
  | (k, v) :: entries =>
      if v.isUndefined then entriesToJson entries else (k, toJson v) :: entriesToJson entries

end

mutual

/-- The value that a document denotes. -/
def ofJson : Json → Value
  | .null => .null
  | .bool b => .bool b
  | .integer n => .number (Double.ofInt n)
  | .number x => .number x
  | .string s => .string s
  | .array items => .array (ofJsonItems items)
  | .object ⟨entries⟩ => .object ⟨ofJsonEntries entries⟩

/-- The values of the items of a document. -/
def ofJsonItems : List Json → List Value
  | [] => []
  | j :: items => ofJson j :: ofJsonItems items

/-- The values of the entries of a document. -/
def ofJsonEntries : List (String × Json) → List (String × Value)
  | [] => []
  | (k, j) :: entries => (k, ofJson j) :: ofJsonEntries entries

end

mutual

/-- The text of a value in messages. -/
def text : Value → String
  | .undefined => "undefined"
  | .bigint n => toString n.val ++ "n"
  | .set items => "Set(" ++ ", ".intercalate (itemTexts items) ++ ")"
  | v => v.toJson.render
termination_by structural v => v

/-- The texts of the members of a set. -/
def itemTexts : List Value → List String
  | [] => []
  | v :: items => text v :: itemTexts items
termination_by structural items => items

end

/-- The text of a value with strings bare, without quotes. -/
def bareText : Value → String
  | .string s => s
  | v => v.text

end Value

end ValueSchema

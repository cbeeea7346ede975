import ValueSchema.Calendar.Reader
import ValueSchema.Double.Reader
import ValueSchema.Schema.Basic
import ValueSchema.Text.Blank
import ValueSchema.Value.Json

/-!
# Conversions between kinds of values

`Leaf.coerce` converts other forms of input to the kind of a leaf, before the input is
tested.  What is of the kind already, what is missing and what cannot be converted
stays as it is.  `Value.cast` converts an output to another form, a big integer to a
number and a date to its text.
-/

namespace ValueSchema

namespace Coercion

/-- A text as a number.  Blank text is zero, and what cannot be read is not a number. -/
def textToNumber (s : String) : Double :=
  let t := Text.trim s
  if t.isEmpty then .zero false else (Double.ofText? t).getD (.nan false)

/-- Whether a double is a whole number between the bounds of the big integers.  The bounds are
themselves rounded to doubles, so the upper one does not belong to them. -/
def fitsBigint (x : Double) : Bool :=
  x.isIntegral && (Double.ofInt (-Int128.bound)).order x != .gt
    && x.order (.ofInt (Int128.bound - 1)) == .lt

/-- A double as a big integer, if it is one. -/
def numberToBigint? (x : Double) : Option Int128 :=
  if fitsBigint x then some (.clamp (x.toIntWithin (-Int128.bound) (Int128.bound - 1))) else none

/-- A finite number of milliseconds as a date, its fraction cut off. -/
def numberToDate? (x : Double) : Option Instant :=
  if x.isFinite then Instant.ofMillis? (x.toIntWithin (-Int128.bound64) (Int128.bound64 - 1)) else none

/-- A number as a byte, if it is one. -/
def byte? : Value → Option UInt8
  | .number x =>
      match x.toInt? with
      | some n => if 0 ≤ n ∧ n ≤ 255 then some (UInt8.ofNat n.toNat) else none
      | none => none
  | _ => none

/-- The conversion to a text. -/
def toString? : Value → Option String
  | .number x => some x.plainText
  | .bool b => some (if b then "true" else "false")
  | .bigint n => some (toString n.val)
  | .date t => some t.toText
  | .null => some "null"
  | _ => none

/-- The conversion to a number. -/
def toNumber? : Value → Option Double
  | .string s => some (textToNumber s)
  | .bool b => some (.ofNat (if b then 1 else 0))
  | .bigint n => some (.ofInt n.val)
  | .date t => some (.ofInt t.toMillis)
  | .null => some (.zero false)
  | _ => none

/-- The conversion to a big integer. -/
def toBigint? : Value → Option Int128
  | .number x => numberToBigint? x
  | .string s => Int128.ofText? (Text.trim s)
  | .bool b => some (.ofBool b)
  | _ => none

/-- The conversion to a date. -/
def toDate? : Value → Option Instant
  | .string s => Instant.ofText? s
  | .number x => numberToDate? x
  | _ => none

/-- The conversion to bytes: those of a text, or a list of numbers that are bytes. -/
def toBuffer? : Value → Option (List UInt8)
  | .string s => some s.toUTF8.toList
  | .array items => items.mapM byte?
  | _ => none

end Coercion

/-- A value converted to the kind of a leaf, if it can be. -/
def Leaf.coerce (l : Leaf) (v : Value) : Value :=
  if v.isUndefined then v
  else match l with
    | .string => ((Coercion.toString? v).map .string).getD v
    | .number => ((Coercion.toNumber? v).map .number).getD v
    | .bigint => ((Coercion.toBigint? v).map .bigint).getD v
    | .boolean => .bool v.isTruthy
    | .date => ((Coercion.toDate? v).map .date).getD v
    | .buffer => ((Coercion.toBuffer? v).map .buffer).getD v
    | _ => v

/-- A value in the other form of its kind. -/
def Value.cast : Value → Value
  | .bigint n => .number (.ofInt n.val)
  | .date t => .string t.toText
  | v => v

end ValueSchema

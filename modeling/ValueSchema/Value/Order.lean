import ValueSchema.Value.Basic

/-!
# The order of values

`Value.order` compares any two values.  Values of different types are ordered by
type (`Value.rank`), where numbers and big integers count as one type and compare
numerically, the big integer rounded to a double first.  Texts compare by code
points, buffers by bytes, and arrays and sets by their first unequal items, a
shorter one below its extensions.  Objects compare by their number of entries
alone.
-/

namespace ValueSchema

namespace Value

/-- The place of a value's type among the types. -/
def rank : Value → Nat
  | .undefined => 0
  | .null => 1
  | .bool _ => 2
  | .number _ => 3
  | .bigint _ => 3
  | .string _ => 4
  | .date _ => 5
  | .buffer _ => 6
  | .array _ => 7
  | .set _ => 8
  | .object _ => 9

mutual

/-- The order of two values. -/
def order : Value → Value → Ordering
  | .bool a, .bool b => compare a.toNat b.toNat
  | .number x, .number y => x.order y
  | .bigint m, .bigint n => compare m.val n.val
  | .number x, .bigint n => x.order (Double.ofInt n.val)
  | .bigint m, .number y => (Double.ofInt m.val).order y
  | .string s, .string t => compare s t
  | .date t, .date u => t.order u
  | .buffer a, .buffer b => compare (a.map UInt8.toNat) (b.map UInt8.toNat)
  | .array as, .array bs => orderItems as bs
  | .set as, .set bs => orderItems as bs
  | .object as, .object bs => compare as.size bs.size
  | a, b => compare a.rank b.rank
termination_by structural a => a

/-- The order of two lists of values: that of the first unequal items, or else of
the lengths. -/
def orderItems : List Value → List Value → Ordering
  | [], [] => .eq
  | [], _ :: _ => .lt
  | _ :: _, [] => .gt
  | a :: as, b :: bs => (order a b).then (orderItems as bs)
termination_by structural as => as

end

end Value

end ValueSchema

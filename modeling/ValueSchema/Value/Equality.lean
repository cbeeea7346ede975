import ValueSchema.Value.Basic

/-!
# Equality of values

`Value.equal`, also written `==`, compares values by structure.  Numbers compare
numerically, so the two zeros are equal and what is not a number equals nothing,
not even itself.  Objects are equal when they have the same keys with equal values
in any order.  Values of different kinds are never equal.

`Value.merge?` joins two outputs of one input.  Equal values merge to the first of
them, objects entry by entry and arrays of one length element by element, and
everything else is a conflict.
-/

namespace ValueSchema

namespace Value

mutual

/-- Equality by structure. -/
def equal : Value → Value → Bool
  | .undefined, .undefined => true
  | .null, .null => true
  | .bool a, .bool b => a == b
  | .number x, .number y => x.equal y
  | .bigint m, .bigint n => m == n
  | .string s, .string t => s == t
  | .date t, .date u => t == u
  | .buffer a, .buffer b => a == b
  | .array as, .array bs => equalItems as bs
  | .set as, .set bs => equalItems as bs
  | .object ⟨as⟩, .object bs => as.length == bs.size && equalEntries as bs
  | _, _ => false

/-- Equality of lists of values, position by position. -/
def equalItems : List Value → List Value → Bool
  | [], [] => true
  | a :: as, b :: bs => equal a b && equalItems as bs
  | _, _ => false

/-- Whether each entry has an equal one under the same key. -/
def equalEntries : List (String × Value) → Entries Value → Bool
  | [], _ => true
  | (k, a) :: as, bs => (bs.get? k).any (equal a) && equalEntries as bs

end

instance : BEq Value := ⟨equal⟩

/-- The items without those that `same` identifies with an earlier kept one. -/
def keepFirst (same : Value → Value → Bool) (items : List Value) : List Value :=
  items.foldl (fun kept item => if kept.any (same · item) then kept else kept ++ [item]) []

/-- The items without those equal to an earlier one. -/
def distinct (items : List Value) : List Value := keepFirst (· == ·) items

mutual

/-- The merge of two values, if they do not conflict. -/
def merge? (left right : Value) : Option Value :=
  if left == right then some left
  else match left, right with
    | .object ls, .object ⟨rs⟩ => (mergeEntries? ls rs).map .object
    | .array ls, .array rs => (mergeItems? ls rs).map .array
    | _, _ => none
termination_by structural right

/-- The merge of entries into an object: a key it has is merged in its place and
another one goes to the end. -/
def mergeEntries? (left : Entries Value) : List (String × Value) → Option (Entries Value)
  | [] => some left
  | (k, r) :: rs =>
      match left.get? k with
      | some l =>
          match merge? l r with
          | some m => mergeEntries? (left.insert k m) rs
          | none => none
      | none => mergeEntries? (left.insert k r) rs
termination_by structural right => right

/-- The merge of two arrays, if they have one length. -/
def mergeItems? : List Value → List Value → Option (List Value)
  | [], [] => some []
  | l :: ls, r :: rs =>
      match merge? l r, mergeItems? ls rs with
      | some m, some ms => some (m :: ms)
      | _, _ => none
  | _, _ => none
termination_by structural _ right => right

end

end Value

end ValueSchema

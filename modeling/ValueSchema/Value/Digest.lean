import ValueSchema.Value.Basic

/-!
# Digests of values

A digest is a word of 64 bits that equal values share.  `Value.digest` computes it
for any way `h` of turning a list of words into one word.  A value is first written
as words: a word for its type, then its contents, with the length in front of every
list.  Equality does not see the sign of zero, so both zeros are written alike; and
it does not see the order of keys, so the entries of an object are digested one by
one and their digests added up.
-/

namespace ValueSchema

/-- A way of turning a list of words into one word. -/
abbrev WordHash := List UInt64 → UInt64

/-- A hash that folds the words in one after another, mixing with a large odd
factor each time. -/
def mixingHash : WordHash := fun words =>
  words.foldl (fun acc w =>
    let mixed := (acc ^^^ w) * 0x9e3779b97f4a7c15
    mixed ^^^ (mixed >>> 29)) 0xcbf29ce484222325

namespace Value

/-- The words of a text: its length and its characters. -/
def stringWords (s : String) : List UInt64 :=
  UInt64.ofNat s.length :: s.toList.map fun c => UInt64.ofNat c.toNat

/-- The words of an integer: its sign and its two halves. -/
def intWords (n : Int) : List UInt64 :=
  [if n < 0 then 1 else 0, UInt64.ofNat (n.natAbs >>> 64), UInt64.ofNat n.natAbs]

/-- The word of a number, one for both zeros. -/
def numberWord (x : Double) : UInt64 := UInt64.ofNat (if x.isZero then 0 else x.bits)

mutual

/-- The words of a value. -/
def words (h : WordHash) : Value → List UInt64
  | .undefined => [0]
  | .null => [1]
  | .bool b => [2, if b then 1 else 0]
  | .number x => [3, numberWord x]
  | .bigint n => 4 :: intWords n.val
  | .string s => 5 :: stringWords s
  | .date t => 6 :: (intWords t.seconds ++ [UInt64.ofNat t.nanos])
  | .buffer bytes => 7 :: UInt64.ofNat bytes.length :: bytes.map UInt8.toUInt64
  | .array items => 8 :: UInt64.ofNat items.length :: itemWords h items
  | .set items => 9 :: UInt64.ofNat items.length :: itemWords h items
  | .object ⟨entries⟩ => [10, UInt64.ofNat entries.length, entrySum h entries]

/-- The words of a list of values, one after another. -/
def itemWords (h : WordHash) : List Value → List UInt64
  | [] => []
  | v :: items => words h v ++ itemWords h items

/-- The sum of the digests of entries, modulo `2 ^ 64`. -/
def entrySum (h : WordHash) : List (String × Value) → UInt64
  | [] => 0
  | (k, v) :: entries => h (stringWords k ++ words h v) + entrySum h entries

end

/-- The digest of a value. -/
def digest (h : WordHash) (v : Value) : UInt64 := h (words h v)

end Value

end ValueSchema

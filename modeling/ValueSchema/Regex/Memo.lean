import Std.Data.HashMap

/-!
# Bounded memory of states

A `Memo` remembers states by what they do, so that a state with the same steps is not
built again.  It has a fixed number of slots.  A key goes to the slot of its digest and
replaces the one that was there: a forgotten state is built once more, which costs room
and changes nothing else.
-/

namespace ValueSchema

namespace Regex

/-- States remembered by keys. -/
structure Memo where
  /-- The number of slots. -/
  capacity : Nat
  /-- The key and the state in each slot that is not empty. -/
  slots : Std.HashMap Nat (List Nat × Nat) := {}

namespace Memo

/-- The slot of a key: the remainder of a digest of 64 bits, which multiplies by a prime
number after each exclusive disjunction with a part of the key. -/
def slot (m : Memo) (key : List Nat) : Nat :=
  (key.foldl (fun h k => (h ^^^ UInt64.ofNat k) * 1099511628211) 14695981039346656037).toNat %
    m.capacity

/-- The state that a key is remembered with. -/
def find? (m : Memo) (key : List Nat) : Option Nat :=
  match m.slots[m.slot key]? with
  | some (k, n) => if k = key then some n else none
  | none => none

/-- Remembers a state by a key. -/
def insert (m : Memo) (key : List Nat) (n : Nat) : Memo :=
  { m with slots := m.slots.insert (m.slot key) (key, n) }

/-- What was inserted last is found. -/
theorem find?_insert (m : Memo) (key : List Nat) (n : Nat) :
    (m.insert key n).find? key = some n := by
  simp [find?, insert, slot]

end Memo

end Regex

end ValueSchema

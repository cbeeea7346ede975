import ValueSchema.Unicode.CodeSet

/-!
# Intervals of bytes

UTF-8 writes a character as one to four bytes.  `CodeSet.byteSequences` describes the
bytes of a set's members by sequences of intervals: a text of bytes is a member of the
set exactly when its bytes lie in the intervals of one sequence, one after another.
-/

namespace ValueSchema

/-- The bytes from `low` to `high`. -/
structure ByteRange where
  /-- The first byte. -/
  low : UInt8
  /-- The last byte. -/
  high : UInt8
deriving DecidableEq, Repr

/-- Whether a byte lies in an interval. -/
def ByteRange.contains (r : ByteRange) (b : UInt8) : Bool := r.low ≤ b && b ≤ r.high

namespace CodeSet

/-- The code points written with one, two, three and four bytes. -/
def byteSizes : List (Nat × Nat) :=
  [(0, 0x7f), (0x80, 0x7ff), (0x800, 0xd7ff), (0xe000, 0xffff), (0x10000, 0x10ffff)]

/-- The parts of an interval that are written with one number of bytes. -/
def splitBySize (low high : Nat) : List (Nat × Nat) :=
  byteSizes.filterMap fun s =>
    if max low s.1 ≤ min high s.2 then some (max low s.1, min high s.2) else none

/-- The parts of an interval in which the last bytes are independent of the others, where
the blocks of a list of lengths have the same bytes in front.  A part in the middle
consists of whole blocks. -/
def splitByBlock : List Nat → Nat → Nat → List (Nat × Nat)
  | [], low, high => [(low, high)]
  | k :: ks, low, high =>
      if low / k = high / k then splitByBlock ks low high
      else
        let first := (low + k - 1) / k * k
        let last := (high + 1) / k * k
        (if low < first then [(low, first - 1)] else []) ++
          (if first < last then splitByBlock ks first (last - 1) else []) ++
          (if last ≤ high then [(last, high)] else [])
termination_by structural ks => ks

/-- The parts of an interval of code points written with one number of bytes in which
every byte is independent of the others. -/
def splitIndependent (low high : Nat) : List (Nat × Nat) :=
  if high < 0x80 then [(low, high)] else splitByBlock [0x40, 0x1000, 0x40000] low high

/-- The bytes of a code point. -/
def bytesOf (n : Nat) : List UInt8 := String.utf8EncodeChar (Char.ofNat n)

/-- The intervals between the bytes of two code points. -/
def rangesBetween (low high : Nat) : List ByteRange :=
  (bytesOf low).zipWith ByteRange.mk (bytesOf high)

/-- The sequences of intervals of the bytes of a set, in ascending order. -/
def byteSequences (s : CodeSet) : List (List ByteRange) :=
  ((s.intervals.flatMap fun i => splitBySize i.1 i.2).flatMap fun i =>
    splitIndependent i.1 i.2).map fun i => rangesBetween i.1 i.2

example : (interval 0x30 0x801).byteSequences =
    [[⟨0x30, 0x7f⟩], [⟨0xc2, 0xdf⟩, ⟨0x80, 0xbf⟩], [⟨0xe0, 0xe0⟩, ⟨0xa0, 0xa0⟩, ⟨0x80, 0x81⟩]] := by
  decide +kernel

end CodeSet

end ValueSchema

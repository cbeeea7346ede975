import ValueSchema.Text.Hex

/-!
# Sets of code points

A `CodeSet` is a set of Unicode scalar values, kept as its intervals in ascending
order.  Two intervals of a set never touch, so that equal sets have equal lists; the
surrogates between U+D7FF and U+E000 are no scalar values, and these two count as
neighbours.

`CodeSet.addAll` adds intervals to a set and keeps this form.  Unions go through it,
the complement lists the gaps, and intersections are complements of unions.

Large sets are written as tables.  A table is a text of hexadecimal code points with
white space between: `a` for one, `a-b` for an interval, and `a~b` for every second
one from `a` to `b`.
-/

namespace ValueSchema

/-- A set of scalar values. -/
structure CodeSet where
  /-- The first and the last code point of each interval. -/
  intervals : List (Nat × Nat)
deriving DecidableEq, Repr

namespace CodeSet

/-- The last code point. -/
def maximum : Nat := 0x10ffff

/-- The scalar value after another one. -/
def after (n : Nat) : Nat := if n = 0xd7ff then 0xe000 else n + 1

/-- The scalar value before another one. -/
def before (n : Nat) : Nat := if n = 0xe000 then 0xd7ff else n - 1

/-- Whether a code point belongs to a set. -/
def contains (s : CodeSet) (n : Nat) : Bool := s.intervals.any fun i => i.1 ≤ n && n ≤ i.2

/-- The intervals of a list in ascending order and one more, joined with those that it
touches. -/
def add (low high : Nat) : List (Nat × Nat) → List (Nat × Nat)
  | [] => [(low, high)]
  | (l, h) :: is =>
      if after high < l then (low, high) :: (l, h) :: is
      else if after h < low then (l, h) :: add low high is
      else add (min low l) (max high h) is
termination_by structural is => is

/-- The set of the members of a set and of the code points in some interval of a list. -/
def addAll (is : List (Nat × Nat)) (s : CodeSet) : CodeSet :=
  ⟨is.foldr (fun i => add i.1 i.2) s.intervals⟩

/-- The set of the code points in some interval. -/
def ofIntervals (is : List (Nat × Nat)) : CodeSet := addAll is ⟨[]⟩

/-- The set of the code points from `low` to `high`. -/
def interval (low high : Nat) : CodeSet := ⟨[(low, high)]⟩

/-- The set of one character. -/
def single (c : Char) : CodeSet := interval c.toNat c.toNat

/-- The set of the characters of a text. -/
def ofText (text : String) : CodeSet :=
  ofIntervals (text.toList.map fun c => (c.toNat, c.toNat))

/-- The only member of a set with one. -/
def onlyChar? (s : CodeSet) : Option Char :=
  match s.intervals with
  | [(low, high)] => if low = high then some (Char.ofNat low) else none
  | _ => none

/-- Whether all members are ASCII characters. -/
def isAscii (s : CodeSet) : Bool := s.intervals.all fun i => i.2 < 0x80

/-! ## Operations -/

instance : EmptyCollection CodeSet := ⟨⟨[]⟩⟩

instance : Union CodeSet := ⟨fun s t => addAll s.intervals t⟩

/-- The intervals between those of a list, from `low` on. -/
def gaps (low : Nat) : List (Nat × Nat) → List (Nat × Nat)
  | [] => if low ≤ maximum then [(low, maximum)] else []
  | (l, h) :: rest =>
      if low < l then (low, before l) :: gaps (after h) rest else gaps (after h) rest
termination_by structural is => is

/-- The scalar values outside of a set. -/
def compl (s : CodeSet) : CodeSet := ⟨gaps 0 s.intervals⟩

instance : Inter CodeSet := ⟨fun s t => (s.compl ∪ t.compl).compl⟩

instance : SDiff CodeSet := ⟨fun s t => (s.compl ∪ t).compl⟩

/-- The members of exactly one of two sets. -/
def symmetricDifference (s t : CodeSet) : CodeSet := (s \ t) ∪ (t \ s)

/-- The members of some set of a list. -/
def unionAll (sets : List CodeSet) : CodeSet := sets.foldr (· ∪ ·) ∅

/-- All scalar values. -/
def all : CodeSet := interval 0 maximum

/-! ## Tables -/

/-- The number that leading hexadecimal digits of a text denote. -/
def leadingNumber (cs : List Char) : Nat :=
  (Text.hexNumber? (cs.takeWhile fun c => (Text.hexDigit? c).isSome)).getD 0

/-- The intervals that one entry of a table denotes. -/
def ofEntry (entry : List Char) : List (Nat × Nat) :=
  let first := leadingNumber entry
  match entry.dropWhile fun c => (Text.hexDigit? c).isSome with
  | '-' :: cs => [(first, leadingNumber cs)]
  | '~' :: cs =>
      (List.range ((leadingNumber cs - first) / 2 + 1)).map fun i =>
        (first + 2 * i, first + 2 * i)
  | _ => [(first, first)]

/-- The entries of a table: its parts between white space, where `entry` holds the
characters of the current one, latest first. -/
def entries (entry : List Char) : List Char → List (List Char)
  | [] => if entry.isEmpty then [] else [entry.reverse]
  | c :: cs =>
      if c.isWhitespace then
        if entry.isEmpty then entries [] cs else entry.reverse :: entries [] cs
      else entries (c :: entry) cs
termination_by structural cs => cs

/-- The set that a table denotes. -/
def ofTable (table : String) : CodeSet := ofIntervals ((entries [] table.toList).flatMap ofEntry)

/-! ## ASCII -/

/-- The ASCII letters. -/
def asciiLetter : CodeSet := interval 'A'.toNat 'Z'.toNat ∪ interval 'a'.toNat 'z'.toNat

/-- The ASCII digits. -/
def asciiDigit : CodeSet := interval '0'.toNat '9'.toNat

/-- The ASCII letters and digits. -/
def asciiAlnum : CodeSet := asciiLetter ∪ asciiDigit

/-! ## Members -/

/-- Adding an interval adds its code points and no other scalar value. -/
theorem contains_add {n : Nat} (hn : n < 0xd800 ∨ 0xdfff < n) {low high : Nat}
    (hle : low ≤ high) {is : List (Nat × Nat)} (his : ∀ i ∈ is, i.1 ≤ i.2) :
    contains ⟨add low high is⟩ n = true ↔ (low ≤ n ∧ n ≤ high) ∨ contains ⟨is⟩ n = true := by
  induction is generalizing low high with
  | nil => simp [add, contains]
  | cons i is ih =>
      obtain ⟨l, h⟩ := i
      have hlh : l ≤ h := his (l, h) List.mem_cons_self
      have hrest : ∀ i ∈ is, i.1 ≤ i.2 := fun i hi => his i (List.mem_cons_of_mem _ hi)
      simp only [add]
      split
      · simp [contains]
      · next hhigh =>
          split
          · have hi := ih hle hrest
            simp only [contains, List.any_cons, Bool.or_eq_true, Bool.and_eq_true,
              decide_eq_true_eq] at hi ⊢
            rw [hi]
            exact or_left_comm
          · next hlow =>
              rw [ih (Nat.le_trans (Nat.min_le_left low l)
                (Nat.le_trans hle (Nat.le_max_left high h))) hrest]
              simp only [contains, List.any_cons, Bool.or_eq_true, Bool.and_eq_true,
                decide_eq_true_eq, ← or_assoc]
              refine or_congr_left ?_
              simp only [after] at hhigh hlow
              split at hhigh <;> split at hlow <;> omega

/-- Intervals that are added to proper ones are proper. -/
theorem le_of_mem_add {low high : Nat} (hle : low ≤ high) {is : List (Nat × Nat)}
    (his : ∀ i ∈ is, i.1 ≤ i.2) : ∀ i ∈ add low high is, i.1 ≤ i.2 := by
  induction is generalizing low high with
  | nil => simpa [add] using hle
  | cons i is ih =>
      obtain ⟨l, h⟩ := i
      have hlh : l ≤ h := his (l, h) List.mem_cons_self
      have hrest : ∀ i ∈ is, i.1 ≤ i.2 := fun i hi => his i (List.mem_cons_of_mem _ hi)
      simp only [add]
      split
      · exact fun i hi => (List.mem_cons.mp hi).elim (fun e => e ▸ hle) (his i)
      · split
        · exact fun i hi => (List.mem_cons.mp hi).elim (fun e => e ▸ hlh) (ih hle hrest i)
        · exact ih (by omega) hrest

/-- A union has the members of both sets. -/
theorem contains_union {n : Nat} (hn : n < 0xd800 ∨ 0xdfff < n) {s t : CodeSet}
    (hs : ∀ i ∈ s.intervals, i.1 ≤ i.2) (ht : ∀ i ∈ t.intervals, i.1 ≤ i.2) :
    (s ∪ t).contains n = (s.contains n || t.contains n) := by
  suffices h : ∀ is : List (Nat × Nat), (∀ i ∈ is, i.1 ≤ i.2) →
      (∀ i ∈ (addAll is t).intervals, i.1 ≤ i.2) ∧
        ((addAll is t).contains n = true ↔ contains ⟨is⟩ n = true ∨ t.contains n = true) by
    rw [Bool.eq_iff_iff, Bool.or_eq_true]
    exact (h s.intervals hs).2
  intro is his
  induction is with
  | nil => exact ⟨ht, by simp [addAll, contains]⟩
  | cons i is ih =>
      have hrest := ih fun j hj => his j (List.mem_cons_of_mem _ hj)
      have hi := his i List.mem_cons_self
      refine ⟨le_of_mem_add hi hrest.1, (contains_add hn hi hrest.1).trans ?_⟩
      rw [hrest.2]
      simp [contains, or_assoc]

/-! ## Tests -/

example : ofIntervals [(5, 7), (1, 2), (3, 3)] = ⟨[(1, 3), (5, 7)]⟩ := by decide +kernel
example : (interval 0xe000 0x10ffff).compl = ⟨[(0, 0xd7ff)]⟩ := by decide +kernel
example : ofTable "41-5a 100~104 aa" = ⟨[(0x41, 0x5a), (0xaa, 0xaa), (0x100, 0x100),
    (0x102, 0x102), (0x104, 0x104)]⟩ := by decide +kernel

end CodeSet

end ValueSchema

import ValueSchema.Regex.Escape

/-!
# Classes in brackets

`Regex.readClass` reads a class in brackets: characters, intervals, escapes, named
classes such as `[:alpha:]` and further brackets, and the operations `&&`, `--` and `~~`
between their unions, which apply from left to right.

Case variants are added to each side of an operation, to named classes and to the whole,
always before the complement is taken.
-/

namespace ValueSchema

namespace Regex

/-- A set and how deep the brackets and operations of its text nest. -/
structure Operand where
  /-- The set. -/
  set : CodeSet
  /-- The depth. -/
  depth : Nat

/-- The items of a class that are read one after another. -/
structure Items where
  /-- The union of the items. -/
  set : CodeSet := ∅
  /-- Their number. -/
  count : Nat := 0
  /-- The depth of the deepest one. -/
  depth : Nat := 0

/-- The items and one more. -/
def Items.add (is : Items) (s : CodeSet) (depth : Nat) : Items :=
  { set := is.set ∪ s, count := is.count + 1, depth := max is.depth depth }

/-- The items as a whole. -/
def Items.toOperand (is : Items) : Operand :=
  ⟨is.set, if is.count ≤ 1 then is.depth else is.depth + 1⟩

/-! ## Operations -/

/-- How two sides are combined. -/
inductive SetOperation where
  | inter
  | difference
  | symmetricDifference

/-- The operation that a doubled sign denotes. -/
def setOperation? : Char → Char → Option SetOperation
  | '&', '&' => some .inter
  | '-', '-' => some .difference
  | '~', '~' => some .symmetricDifference
  | _, _ => none

/-- The combination of two sets. -/
def SetOperation.apply (op : SetOperation) (s t : CodeSet) : CodeSet :=
  match op with
  | .inter => s ∩ t
  | .difference => s \ t
  | .symmetricDifference => s.symmetricDifference t

/-- An operation whose right side is not read yet. -/
structure LeftSide where
  /-- The operation. -/
  operation : SetOperation
  /-- Its left side. -/
  operand : Operand

/-- The operand that ends with given items. -/
def combine (m : Modes) (left : Option LeftSide) (is : Items) : Operand :=
  let right := is.toOperand
  match left with
  | none => right
  | some l =>
      ⟨l.operation.apply (m.fold l.operand.set) (m.fold right.set),
        max l.operand.depth right.depth + 1⟩

/-! ## Items -/

/-- The set of a named class. -/
def namedClass? : String → Option CodeSet
  | "alnum" => some .asciiAlnum
  | "alpha" => some .asciiLetter
  | "ascii" => some (.interval 0 0x7f)
  | "blank" => some (.ofText " \t")
  | "cntrl" => some (.interval 0 0x1f ∪ .interval 0x7f 0x7f)
  | "digit" => some .asciiDigit
  | "graph" => some (.interval 0x21 0x7e)
  | "lower" => some (.interval 'a'.toNat 'z'.toNat)
  | "print" => some (.interval 0x20 0x7e)
  | "punct" => some (.interval 0x21 0x7e \ .asciiAlnum)
  | "space" => some asciiSpace
  | "upper" => some (.interval 'A'.toNat 'Z'.toNat)
  | "word" => some asciiWord
  | "xdigit" => some (.asciiDigit ∪ .interval 'A'.toNat 'F'.toNat ∪ .interval 'a'.toNat 'f'.toNat)
  | _ => none

/-- A named class such as `:alpha:]` or `:^alpha:]`, after its opening bracket: the class,
whether it is negated, and the rest. -/
def readNamedClass? : List Char → Option (CodeSet × Bool × List Char)
  | ':' :: cs =>
      let (negated, cs) := match cs with
        | '^' :: r => (true, r)
        | r => (false, r)
      match cs.dropWhile (· ≠ ':') with
      | ':' :: ']' :: rest =>
          (namedClass? (String.ofList (cs.takeWhile (· ≠ ':')))).map fun s => (s, negated, rest)
      | _ => none
  | _ => none

/-- One character or escape inside a class. -/
def readClassAtom (m : Modes) : List Char → Option (Escape × List Char)
  | [] => none
  | '\\' :: cs => readEscape m cs
  | c :: cs => some (.literal c, cs)

/-- The set of an atom inside a class.  Modes that know only ASCII have no other
characters. -/
def Escape.toSet? (m : Modes) : Escape → Option CodeSet
  | .literal c => if m.unicode || c.toNat < 0x80 then some (.single c) else none
  | .set s => some s
  | .anchor _ => none

/-- The set of an interval between two atoms. -/
def intervalSet? (m : Modes) : Escape → Escape → Option CodeSet
  | .literal a, .literal b =>
      if a ≤ b ∧ (m.unicode ∨ b.toNat < 0x80) then some (.interval a.toNat b.toNat) else none
  | _, _ => none

/-- One atom inside a class, or an interval between two characters.  A dash before a
closing bracket or another dash does not mean an interval. -/
def readInterval (m : Modes) (cs : List Char) : Option (CodeSet × List Char) := do
  let (first, rest) ← readClassAtom m cs
  match m.skip rest with
  | '-' :: r =>
      if m.peek? r = some ']' ∨ m.peek? r = some '-' then return (← first.toSet? m, '-' :: r)
      else
        let (last, rest) ← readClassAtom m (m.skip r)
        return (← intervalSet? m first last, rest)
  | rest => return (← first.toSet? m, rest)

/-- The dashes in front of a class and the rest. -/
def readDashes (m : Modes) : Nat → Items → List Char → Items × List Char
  | fuel + 1, is, '-' :: cs => readDashes m fuel (is.add (.single '-') 0) (m.skip cs)
  | _, is, cs => (is, cs)
termination_by structural fuel => fuel

/-! ## Brackets -/

mutual

/-- A class after its opening bracket.  Dashes in front, and else a closing bracket in
first place, stand for themselves. -/
def readClass (m : Modes) : Nat → List Char → Option (Operand × List Char)
  | 0, _ => none
  | fuel + 1, cs => do
      let (negated, cs) := match m.skip cs with
        | '^' :: r => (true, m.skip r)
        | r => (false, r)
      let (is, cs) := match readDashes m cs.length {} cs with
        | (⟨_, 0, _⟩, ']' :: r) => (Items.add {} (.single ']') 0, m.skip r)
        | p => p
      let (inner, rest) ← readItems m fuel none is cs
      let s ← m.signed? negated (m.fold inner.set)
      return (⟨s, inner.depth + 1⟩, rest)
termination_by structural fuel => fuel

/-- The items of a class up to its closing bracket, after an operation's left side and
the items `is`. -/
def readItems (m : Modes) :
    Nat → Option LeftSide → Items → List Char → Option (Operand × List Char)
  | 0, _, _, _ => none
  | fuel + 1, left, is, cs =>
      match m.skip cs with
      | [] => none
      | ']' :: rest => some (combine m left is, rest)
      | '[' :: r =>
          match readNamedClass? r with
          | some (s, negated, rest) => do
              let s ← m.signed? negated (m.fold s)
              readItems m fuel left (is.add s 0) rest
          | none => do
              let (inner, rest) ← readClass m fuel r
              readItems m fuel left (is.add inner.set inner.depth) rest
      | c :: r =>
          match r.head?.bind (setOperation? c) with
          | some op => readItems m fuel (some ⟨op, combine m left is⟩) {} (r.drop 1)
          | none => do
              let (s, rest) ← readInterval m (c :: r)
              readItems m fuel left (is.add s 0) rest
termination_by structural fuel => fuel

end

end Regex

end ValueSchema

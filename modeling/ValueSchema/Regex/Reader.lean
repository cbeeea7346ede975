import ValueSchema.Regex.Bracket

/-!
# Reading regular expressions

`Regex.ofText?` reads the written form of an expression and refuses what is not one:
a repetition of nothing, a group or class that is not closed, bounds out of order, an
unknown escape or property, a reference back or a look around, and what nests deeper
than `Regex.maxDepth`.

The reader walks over the text once.  It keeps the group it is in, as the finished
branches and the items of the current one, and a stack of the groups around it.
-/

namespace ValueSchema

namespace Regex

/-- How deep the text of an expression may nest.  Each group, repetition, bracket, choice
and sequence of several items around a sign counts. -/
def maxDepth : Nat := 250

/-! ## Bounds -/

/-- A decimal number with white space around it. -/
def readCount (m : Modes) (cs : List Char) : Option (Nat × List Char) :=
  let (digits, rest) := m.run Char.isDigit (Text.trimStart cs)
  let n := digits.foldl (fun n c => 10 * n + (c.toNat - '0'.toNat)) 0
  if digits ≠ [] ∧ n < 1 <<< 32 then some (n, Text.trimStart rest) else none

/-- The bounds of a repetition after its opening brace. -/
def readBounds (m : Modes) (cs : List Char) : Option ((Nat × Option Nat) × List Char) :=
  match readCount m (m.skip cs) with
  | some (n, '}' :: rest) => some ((n, some n), rest)
  | some (n, ',' :: r) =>
      match m.skip r with
      | '}' :: rest => some ((n, none), rest)
      | r =>
          match readCount m r with
          | some (k, '}' :: rest) => if n ≤ k then some ((n, some k), rest) else none
          | _ => none
  | _ => none

/-! ## Names -/

/-- Whether a name of a group may start with a character. -/
def isNameStart (c : Char) : Bool := c = '_' || Unicode.isAlphabetic c

/-- Whether a character may be part of the name of a group. -/
def isNamePart (c : Char) : Bool :=
  c = '_' || c = '.' || c = '[' || c = ']' || Unicode.isAlphanumeric c

/-- The name of a group up to the closing angle bracket. -/
def readGroupName (cs : List Char) : Option (String × List Char) :=
  let name := cs.takeWhile (· ≠ '>')
  match cs.dropWhile (· ≠ '>') with
  | _ :: rest =>
      if name.head?.any isNameStart && name.all isNamePart then some (String.ofList name, rest)
      else none
  | [] => none

/-! ## Places -/

/-- An item of a branch. -/
structure Item where
  /-- The expression, absent for a setting of modes. -/
  regex : Option Regex
  /-- How deep its text nests. -/
  depth : Nat

/-- A group that is being read. -/
structure Group where
  /-- The finished branches, latest first. -/
  finished : List Item := []
  /-- The items of the current branch, latest first. -/
  items : List Item := []
  /-- The number of the group, if it has one. -/
  number : Option Nat := none
  /-- The modes outside of the group. -/
  outer : Modes := {}

/-- The depth of a text that joins others of given depths. -/
def joinedDepth (depths : List Nat) : Nat :=
  match depths with
  | [] => 0
  | [d] => d
  | ds => ds.foldl max 0 + 1

/-- The current branch as one item. -/
def Group.current (g : Group) : Item :=
  ⟨some (sequence (g.items.reverse.filterMap (·.regex))), joinedDepth (g.items.map (·.depth))⟩

/-- The branches as one item. -/
def Group.toItem (g : Group) : Item :=
  match g.finished with
  | [] => g.current
  | finished =>
      let branches := (g.current :: finished).reverse
      ⟨some (choice (branches.filterMap (·.regex))), joinedDepth (branches.map (·.depth))⟩

/-- What the reader knows at a place of the text. -/
structure Place where
  /-- The modes. -/
  modes : Modes := {}
  /-- The group around the place. -/
  group : Group := {}
  /-- The groups around that group, innermost first. -/
  stack : List Group := []
  /-- How many numbered groups were opened. -/
  count : Nat := 0
  /-- The names given to groups. -/
  names : List String := []

/-- The place after one more item. -/
def Place.push (p : Place) (i : Item) : Place :=
  { p with group := { p.group with items := i :: p.group.items } }

/-- The place after one more item without parts. -/
def Place.add (p : Place) (r : Regex) : Place := p.push ⟨some r, 0⟩

/-- The place after one more item with parts, unless it nests too deep. -/
def Place.wrap? (p : Place) (r : Regex) (inner : Nat) : Option Place :=
  if inner < maxDepth then some (p.push ⟨some r, inner + 1⟩) else none

/-- The place after a repetition of the last item, which must be an expression. -/
def Place.repeatLast? (p : Place) (least : Nat) (most : Option Nat) (lazy : Bool) :
    Option Place :=
  match p.group.items with
  | ⟨some r, depth⟩ :: items =>
      { p with group := { p.group with items := items } }.wrap?
        (r.repeated least most (lazy == p.modes.lazy)) depth
  | _ => none

/-- The place after a repetition of the last item and the text after the question mark
that may follow. -/
def Place.readRepetition? (p : Place) (least : Nat) (most : Option Nat) :
    List Char → Option (Place × List Char)
  | '?' :: cs => (p.repeatLast? least most true).map (·, cs)
  | cs => (p.repeatLast? least most false).map (·, cs)

/-! ## Groups -/

/-- The place inside a new group. -/
def Place.openGroup (p : Place) (number : Option Nat) (modes : Modes) : Place :=
  { p with
    modes := modes
    group := { number := number, outer := p.modes }
    stack := p.group :: p.stack }

/-- The place inside a new group with the next number. -/
def Place.openNumbered (p : Place) : Place :=
  { p.openGroup (some (p.count + 1)) p.modes with count := p.count + 1 }

/-- The place inside a named group, if the name is new. -/
def Place.openNamed? (p : Place) (cs : List Char) : Option (Place × List Char) :=
  match readGroupName cs with
  | some (name, rest) =>
      if name ∈ p.names then none
      else some ({ p.openNumbered with names := name :: p.names }, rest)
  | none => none

/-- The place after an opening parenthesis. -/
def Place.open? (p : Place) (cs : List Char) : Option (Place × List Char) :=
  match p.modes.skip cs with
  | '?' :: 'P' :: '<' :: cs => p.openNamed? cs
  | '?' :: '<' :: cs => p.openNamed? cs
  | '?' :: cs =>
      (readLetters [] true p.modes cs).map fun (m, ending, rest) =>
        match ending with
        | .group => (p.openGroup none m, rest)
        | .setting => ({ p with modes := m }.push ⟨none, 0⟩, rest)
  | cs => some (p.openNumbered, cs)

/-- The place after the end of the current group. -/
def Place.closeGroup? (p : Place) : Option Place :=
  match p.stack with
  | [] => none
  | g :: stack =>
      let inner := p.group.toItem
      let r := inner.regex.getD .empty
      { p with modes := p.group.outer, group := g, stack := stack }.wrap?
        (p.group.number.elim r fun n => .group n r) inner.depth

/-- The place after the start of the next branch. -/
def Place.nextBranch (p : Place) : Place :=
  { p with group := { p.group with finished := p.group.current :: p.group.finished, items := [] } }

/-! ## Signs -/

/-- The place after an escape. -/
def Place.addEscape (p : Place) : Escape → Place
  | .literal c => p.add (p.modes.char c)
  | .set s => p.add (.ofSet s)
  | .anchor a => p.add (.anchor a)

/-- The place and the text after one token that starts with `c`. -/
def Place.step? (p : Place) (c : Char) (cs : List Char) : Option (Place × List Char) :=
  match c with
  | '(' => p.open? cs
  | ')' => p.closeGroup?.map (·, cs)
  | '|' => some (p.nextBranch, cs)
  | '*' => p.readRepetition? 0 none cs
  | '+' => p.readRepetition? 1 none cs
  | '?' => p.readRepetition? 0 (some 1) cs
  | '{' => do
      let ((least, most), rest) ← readBounds p.modes cs
      p.readRepetition? least most (p.modes.skip rest)
  | '[' => do
      let (s, rest) ← readClass p.modes (cs.length + 1) cs
      let p ← p.wrap? (.ofSet s.set) (s.depth - 1)
      return (p, rest)
  | '^' => some (p.add (.anchor p.modes.startAnchor), cs)
  | '$' => some (p.add (.anchor p.modes.endAnchor), cs)
  | '.' => p.modes.dot?.map fun r => (p.add r, cs)
  | '\\' => (readEscape p.modes cs).map fun (e, rest) => (p.addEscape e, rest)
  | c => some (p.add (p.modes.char c), cs)

/-- The expression that the rest of a text completes.  Every token has at least one
character, so the length of the text bounds the number of tokens. -/
def readFrom : Nat → Place → List Char → Option Regex
  | fuel, p, cs =>
      match p.modes.skip cs with
      | [] =>
          let whole := p.group.toItem
          if p.stack.isEmpty ∧ whole.depth ≤ maxDepth then whole.regex else none
      | c :: cs =>
          match fuel with
          | 0 => none
          | fuel + 1 =>
              match p.step? c cs with
              | some (p', rest) => readFrom fuel p' rest
              | none => none
termination_by structural fuel => fuel

/-- The regular expression that a text denotes, if it is well formed. -/
def ofText? (text : String) : Option Regex := readFrom text.length {} text.toList

/-! ## Tests -/

example : ofText? "ab|ac" == some (.alternation [.literal ['a', 'b'], .literal ['a', 'c']]) := by
  decide +kernel
example : ofText? "(?x) a b # c" == some (.literal ['a', 'b']) := by decide +kernel
example : ofText? "^a|^b" ==
    some (.concat [.anchor .textStart, .chars (.interval 'a'.toNat 'b'.toNat)]) := by decide +kernel
example : (["(", "[a-z", "a\x7b2,1\x7d", "(?<n", "b\x7b", "(?=a)", "(a)\\1", "*a", "(?i)*"].map
    fun s => (ofText? s).isNone).all id = true := by decide +kernel

end Regex

end ValueSchema

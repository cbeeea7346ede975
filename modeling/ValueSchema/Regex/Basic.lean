import ValueSchema.Regex.Anchor

/-!
# Regular expressions

A `Regex` is a regular expression over the characters of a text.  Expressions are built
by `Regex.ofSet`, `Regex.repeated`, `Regex.sequence` and `Regex.choice`, which keep them
in a simple form: parts of a sequence are no sequences, branches of a choice are no
choices, literals of a sequence do not touch, and a choice between single characters is
one set.

`Regex.shape` says how long the matches of an expression are, in bytes of UTF-8, and
whether all of them lie at an end of the text.
-/

namespace ValueSchema

/-- A regular expression. -/
inductive Regex where
  /-- The empty text. -/
  | empty
  /-- One or more given characters. -/
  | literal (text : List Char)
  /-- One character of a set. -/
  | chars (s : CodeSet)
  /-- The empty text at a position that meets a condition. -/
  | anchor (a : Regex.Anchor)
  /-- An expression several times, and whether as often as possible. -/
  | repetition (least : Nat) (most : Option Nat) (greedy : Bool) (r : Regex)
  /-- An expression in a numbered group. -/
  | group (number : Nat) (r : Regex)
  /-- Expressions one after another. -/
  | concat (rs : List Regex)
  /-- One of several expressions. -/
  | alternation (rs : List Regex)

namespace Regex

/-! ## Equality -/

mutual

/-- Whether two expressions are equal. -/
def beq : Regex → Regex → Bool
  | .empty, .empty => true
  | .literal s, .literal t => s == t
  | .chars s, .chars t => s == t
  | .anchor a, .anchor b => a == b
  | .repetition l m g r, .repetition l' m' g' s => l == l' && m == m' && g == g' && beq r s
  | .group n r, .group k s => n == k && beq r s
  | .concat rs, .concat ss => beqAll rs ss
  | .alternation rs, .alternation ss => beqAll rs ss
  | _, _ => false
termination_by structural r => r

/-- Whether two lists of expressions are equal. -/
def beqAll : List Regex → List Regex → Bool
  | [], [] => true
  | r :: rs, s :: ss => beq r s && beqAll rs ss
  | _, _ => false
termination_by structural rs => rs

end

instance : BEq Regex := ⟨beq⟩

/-! ## Shape -/

/-- What all matches of an expression have in common. -/
structure Shape where
  /-- The number of bytes of the shortest match, absent if nothing matches. -/
  shortest : Option Nat := some 0
  /-- The number of bytes of the longest match, absent without a bound. -/
  longest : Option Nat := some 0
  /-- Every match starts at the start of the text. -/
  opens : Bool := false
  /-- Every match ends at the end of the text. -/
  closes : Bool := false

namespace Shape

/-- The number of bytes of a code point. -/
def byteSize (n : Nat) : Nat := (Char.ofNat n).utf8Size

/-- The shape of one character of a set. -/
def ofSet (s : CodeSet) : Shape :=
  { shortest := s.intervals.head?.map fun i => byteSize i.1
    longest := s.intervals.getLast?.map fun i => byteSize i.2 }

/-- The shape of a repetition. -/
def times (least : Nat) (most : Option Nat) (s : Shape) : Shape :=
  { shortest := s.shortest.map (· * least)
    longest := do return (← s.longest) * (← most)
    opens := s.opens && least ≠ 0
    closes := s.closes && least ≠ 0 }

/-- Whether `holds` of one of the shapes up to the first that is not surely empty. -/
def anyLeading (holds : Shape → Bool) : List Shape → Bool
  | [] => false
  | s :: ss => holds s || (s.longest == some 0 && anyLeading holds ss)
termination_by structural ss => ss

/-- The sum of lengths that are all there. -/
def sum? (lengths : List (Option Nat)) : Option Nat := lengths.foldl (fun n l => do
  return (← n) + (← l)) (some 0)

/-- The shape of a sequence. -/
def concat (ss : List Shape) : Shape :=
  { shortest := sum? (ss.map (·.shortest))
    longest := sum? (ss.map (·.longest))
    opens := anyLeading (·.opens) ss
    closes := anyLeading (·.closes) ss.reverse }

/-- The shape of a choice. -/
def alternation (ss : List Shape) : Shape :=
  { shortest := (ss.mapM Shape.shortest).bind List.min?
    longest := (ss.mapM Shape.longest).bind List.max?
    opens := ss.all (·.opens)
    closes := ss.all (·.closes) }

end Shape

mutual

/-- The shape of an expression. -/
def shape : Regex → Shape
  | .empty => {}
  | .literal text =>
      let n := (text.map Char.utf8Size).sum
      { shortest := some n, longest := some n }
  | .chars s => .ofSet s
  | .anchor a => { opens := a == .textStart, closes := a == .textEnd }
  | .repetition least most _ r => (shape r).times least most
  | .group _ r => shape r
  | .concat rs => .concat (shapes rs)
  | .alternation rs => .alternation (shapes rs)
termination_by structural r => r

/-- The shapes of a list of expressions. -/
def shapes : List Regex → List Shape
  | [] => []
  | r :: rs => shape r :: shapes rs
termination_by structural rs => rs

end

/-! ## Construction -/

/-- One character of a set. -/
def ofSet (s : CodeSet) : Regex :=
  match s.onlyChar? with
  | some c => .literal [c]
  | none => .chars s

/-- An expression between `least` and `most` times.  Repeating what matches only the
empty text more than once changes nothing. -/
def repeated (least : Nat) (most : Option Nat) (greedy : Bool) (r : Regex) : Regex :=
  let fixed := (shape r).longest == some 0
  let least := if fixed then min least 1 else least
  let most := if fixed then some (min (most.getD 1) 1) else most
  if least = 0 ∧ most = some 0 then .empty
  else if least = 1 ∧ most = some 1 then r
  else .repetition least most greedy r

/-- The parts of an expression as a sequence. -/
def parts : Regex → List Regex
  | .empty => []
  | .concat rs => rs
  | r => [r]

/-- The expressions of a list, where literals that follow each other are one. -/
def joinLiterals : List Regex → List Regex
  | [] => []
  | .literal s :: rs =>
      match joinLiterals rs with
      | .literal t :: rs' => .literal (s ++ t) :: rs'
      | rs' => .literal s :: rs'
  | r :: rs => r :: joinLiterals rs
termination_by structural rs => rs

/-- Expressions one after another. -/
def sequence (rs : List Regex) : Regex :=
  match joinLiterals (rs.flatMap parts) with
  | [] => .empty
  | [r] => r
  | rs => .concat rs

/-- The branches of an expression as a choice. -/
def branches : Regex → List Regex
  | .alternation rs => rs
  | r => [r]

/-- The set of a literal of one character. -/
def literalSet? : Regex → Option CodeSet
  | .literal [c] => some (.single c)
  | _ => none

/-- The set of an expression for one character of it. -/
def charSet? : Regex → Option CodeSet
  | .chars s => some s
  | _ => none

/-- One of several expressions, where single characters and sets are joined. -/
def join (rs : List Regex) : Regex :=
  match rs.flatMap branches with
  | [] => .chars ∅
  | [r] => r
  | rs =>
      match (rs.mapM literalSet?).or (rs.mapM charSet?) with
      | some sets => ofSet (.unionAll sets)
      | none => .alternation rs

/-- The parts of an expression that has several. -/
def concatParts? : Regex → Option (List Regex)
  | .concat rs => some rs
  | _ => none

/-- How many expressions two lists start with in common. -/
def commonLength : List Regex → List Regex → Nat
  | r :: rs, s :: ss => if r == s then commonLength rs ss + 1 else 0
  | _, _ => 0
termination_by structural rs => rs

/-- One of several branches that are sequences with a common start, which comes before
the choice. -/
def factor (rs : List Regex) : Regex :=
  match rs.mapM concatParts? with
  | some (first :: others) =>
      let n := (others.map (commonLength first)).foldl min first.length
      if n = 0 then .alternation rs
      else sequence (first.take n ++ [join ((first :: others).map fun ps => sequence (ps.drop n))])
  | _ => .alternation rs

/-- One of several expressions. -/
def choice (rs : List Regex) : Regex :=
  match join rs with
  | .alternation rs => factor rs
  | r => r

end Regex

end ValueSchema

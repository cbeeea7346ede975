import ValueSchema.Regex.Basic
import ValueSchema.Text.Blank
import ValueSchema.Unicode.Folding

/-!
# Modes of reading

The letters of a group such as `(?i)` switch modes, up to the end of the group around.
`i` ignores case; `m` lets the anchors match at lines; `s` lets the dot match a line
feed; `U` swaps which repetitions are greedy; `u` admits the characters of all scripts
to the classes and to words; `R` takes a carriage return for the end of a line; and `x`
lets white space and comments stand between the signs of an expression.
-/

namespace ValueSchema

namespace Regex

/-- How an expression is read. -/
structure Modes where
  /-- Case is ignored. -/
  ignoreCase : Bool := false
  /-- The anchors match at the ends of lines. -/
  lines : Bool := false
  /-- The dot matches a line feed. -/
  dotAll : Bool := false
  /-- Repetitions prefer fewer items. -/
  lazy : Bool := false
  /-- Classes and words are those of all scripts and not of ASCII alone. -/
  unicode : Bool := true
  /-- A carriage return ends a line, too. -/
  returns : Bool := false
  /-- White space and comments do not count. -/
  spaced : Bool := false
deriving DecidableEq, Repr

namespace Modes

/-- The modes with the one of a letter switched. -/
def switch? (m : Modes) (on : Bool) : Char → Option Modes
  | 'i' => some { m with ignoreCase := on }
  | 'm' => some { m with lines := on }
  | 's' => some { m with dotAll := on }
  | 'U' => some { m with lazy := on }
  | 'u' => some { m with unicode := on }
  | 'R' => some { m with returns := on }
  | 'x' => some { m with spaced := on }
  | _ => none

/-! ## White space and comments -/

/-- A text after the white space and the comments in front.  A comment goes from a
number sign to the end of the line. -/
def skipBlank (inComment : Bool) : List Char → List Char
  | [] => []
  | c :: cs =>
      if inComment then skipBlank (c ≠ '\n') cs
      else if c = '#' then skipBlank true cs
      else if Text.isBlank c then skipBlank false cs
      else c :: cs
termination_by structural cs => cs

/-- A text from the first sign that counts on. -/
def skip (m : Modes) (cs : List Char) : List Char :=
  if m.spaced then skipBlank false cs else cs

/-- The signs in front for which `p` holds, and the rest.  `fuel` bounds their number. -/
def takeRun (m : Modes) (p : Char → Bool) : Nat → List Char → List Char × List Char
  | fuel + 1, c :: cs =>
      if p c then
        let (run, rest) := takeRun m p fuel (m.skip cs)
        (c :: run, rest)
      else ([], c :: cs)
  | _, cs => ([], cs)
termination_by structural fuel => fuel

/-- The signs in front of a text for which `p` holds, and the rest. -/
def run (m : Modes) (p : Char → Bool) (cs : List Char) : List Char × List Char :=
  takeRun m p cs.length cs

/-- The sign that decides whether a dash before a text means an interval.  The text of a
comment counts. -/
def peek? (m : Modes) (cs : List Char) : Option Char :=
  if m.spaced then
    match Text.trimStart cs with
    | '#' :: rest => (Text.trimStart rest).head?
    | rest => rest.head?
  else cs.head?

/-! ## Sets -/

/-- A set with the case variants that the modes add. -/
def fold (m : Modes) (s : CodeSet) : CodeSet :=
  if !m.ignoreCase then s
  else if m.unicode then Unicode.closeCase s
  else Unicode.closeAsciiCase s

/-- The characters outside of a set.  Modes that know only ASCII do not have it. -/
def compl? (m : Modes) (s : CodeSet) : Option CodeSet := if m.unicode then some s.compl else none

/-- A set or the characters outside of it. -/
def signed? (m : Modes) (negated : Bool) (s : CodeSet) : Option CodeSet :=
  if negated then m.compl? s else some s

/-- A character, where case is ignored if the modes say so. -/
def char (m : Modes) (c : Char) : Regex :=
  if !m.ignoreCase then .literal [c]
  else if m.unicode then
    ofSet (.ofIntervals ((Unicode.caseVariants c.toNat).map fun n => (n, n)))
  else ofSet (Unicode.closeAsciiCase (.single c))

/-- What the dot matches. -/
def dot? (m : Modes) : Option Regex :=
  if !m.unicode then none
  else if m.dotAll then some (.chars .all)
  else if m.returns then some (.chars (CodeSet.ofText "\n\x0d").compl)
  else some (.chars (CodeSet.single '\n').compl)

/-- What the circumflex matches. -/
def startAnchor (m : Modes) : Anchor :=
  if !m.lines then .textStart else if m.returns then .returnLineStart else .lineStart

/-- What the dollar sign matches. -/
def endAnchor (m : Modes) : Anchor :=
  if !m.lines then .textEnd else if m.returns then .returnLineEnd else .lineEnd

end Modes

/-! ## Letters -/

/-- How the letters of a group end. -/
inductive LettersEnd where
  /-- The modes hold in a group that starts here. -/
  | group
  /-- The modes hold up to the end of the group around. -/
  | setting
deriving DecidableEq, Repr

/-- The letters of a group: the modes they leave, how they end and the rest.  Each
letter occurs once, and a letter follows a dash. -/
def readLetters (seen : List Char) (on : Bool) (m : Modes) :
    List Char → Option (Modes × LettersEnd × List Char)
  | [] => none
  | c :: cs =>
      if c = ':' ∧ seen.head? ≠ some '-' then some (m, .group, cs)
      else if c = ')' ∧ seen ≠ [] ∧ seen.head? ≠ some '-' then some (m, .setting, cs)
      else if c ∈ seen then none
      else if c = '-' then readLetters (c :: seen) false m cs
      else
        match m.switch? on c with
        | some m' => readLetters (c :: seen) on m' cs
        | none => none
termination_by structural cs => cs

end Regex

end ValueSchema

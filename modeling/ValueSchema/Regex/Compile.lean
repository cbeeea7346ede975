import ValueSchema.Regex.Basic
import ValueSchema.Regex.CharFragment
import ValueSchema.Regex.WordFragment

/-!
# Automata of expressions

`Regex.automaton?` builds the automaton that searches a text for a match of an
expression.  An expression has one only if the automaton that reads forward and the one
that reads backward, from the end of a match to its start, both keep to the size limit.
Only the former is run.
-/

namespace ValueSchema

namespace Regex

/-- The bytes of a text, in the order in which they are read. -/
def readBytes (back : Bool) (text : List Char) : List UInt8 :=
  let bytes := text.flatMap String.utf8EncodeChar
  if back then bytes.reverse else bytes

/-- The text of a literal. -/
def literalText? : Regex → Option (List Char)
  | .literal text => some text
  | _ => none

mutual

/-- The fragment that reads an expression, and whether from its end.  The marks of groups
are read forward only. -/
def fragment (back : Bool) : Regex → Build Fragment
  | .empty => Fragment.nothing
  | .literal text => Fragment.chain ((readBytes back text).map fun b => Fragment.byte ⟨b, b⟩)
  | .chars s => Fragment.chars back s
  | .anchor a => Fragment.one (.anchor a 0)
  | .repetition least most _ r =>
      Fragment.repeated (fragment back r) ((shape r).shortest.any (0 < ·)) least most
  | .group _ r => if back then fragment back r else Fragment.grouped (fragment back r)
  | .concat rs =>
      let parts := fragments back rs
      Fragment.chain (if back then parts.reverse else parts)
  | .alternation rs =>
      match rs.mapM literalText? with
      | some texts => Fragment.words (texts.map (readBytes back))
      | none => Fragment.choose (fragments back rs)
termination_by structural r => r

/-- The fragments of a list of expressions. -/
def fragments (back : Bool) : List Regex → List (Build Fragment)
  | [] => []
  | r :: rs => fragment back r :: fragments back rs
termination_by structural rs => rs

end

/-- Whether all matches lie at the end of the text where reading starts. -/
def isAnchored (back : Bool) (r : Regex) : Bool :=
  if back then (shape r).closes else (shape r).opens

/-- The automaton of an expression, which reads forward or backward.  A search starts
with a loop over all bytes, unless all matches are at an end of the text. -/
def build (back : Bool) (r : Regex) : Build Nat := do
  let skipped : Fragment ←
    if isAnchored back r then Fragment.nothing else Fragment.loop (Fragment.bytes [⟨0, 255⟩])
  let f ← if back then fragment back r else Fragment.grouped (fragment back r)
  let accept ← Build.add .accept
  Build.connect f.leave accept
  Build.connect skipped.leave f.entry
  return skipped.entry

/-- The automaton that searches for an expression, if it is not too large. -/
def automaton? (r : Regex) : Option Automaton := do
  let (start, builder) ← (build false r).run {}
  let _ ← (build true r).run {}
  return ⟨builder.states, start⟩

end Regex

end ValueSchema

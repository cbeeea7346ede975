import ValueSchema.Unicode.Derived

/-!
# Anchors

An `Anchor` is a condition on a position of a text.  `Anchor.holds` decides it by the
characters on both sides of the position, where a missing one stands for an end of the
text.
-/

namespace ValueSchema

namespace Regex

/-- A condition on the word characters at both sides of a position. -/
inductive WordEdge where
  /-- Exactly one side is a word character. -/
  | edge
  /-- Both sides are word characters, or none. -/
  | noEdge
  /-- A word starts. -/
  | start
  /-- A word ends. -/
  | finish
  /-- No word character comes before. -/
  | noneBefore
  /-- No word character comes after. -/
  | noneAfter
deriving DecidableEq, Repr

/-- A condition on a position of a text. -/
inductive Anchor where
  /-- The position is the first one. -/
  | textStart
  /-- The position is the last one. -/
  | textEnd
  /-- The position is the first one or follows a line feed. -/
  | lineStart
  /-- The position is the last one or precedes a line feed. -/
  | lineEnd
  /-- The position is the first one or follows a line feed or carriage return, and is not
  between the two. -/
  | returnLineStart
  /-- The position is the last one or precedes a line feed or carriage return, and is not
  between the two. -/
  | returnLineEnd
  /-- A condition on words, whose characters are those of ASCII alone or of all scripts. -/
  | word (e : WordEdge) (ascii : Bool)
deriving DecidableEq, Repr

/-- Whether the word characters at both sides meet a condition. -/
def WordEdge.holds (before after : Bool) : WordEdge → Bool
  | .edge => before != after
  | .noEdge => before == after
  | .start => !before && after
  | .finish => before && !after
  | .noneBefore => !before
  | .noneAfter => !after

/-- The ASCII word characters. -/
def asciiWord : CodeSet := .asciiAlnum ∪ .single '_'

/-- Whether a character belongs to words, of ASCII alone or of all scripts. -/
def isWord (ascii : Bool) (c : Char) : Bool :=
  if ascii then asciiWord.contains c.toNat else Unicode.isWordChar c

/-- Whether a position between two characters meets a condition. -/
def Anchor.holds (before after : Option Char) : Anchor → Bool
  | .textStart => before.isNone
  | .textEnd => after.isNone
  | .lineStart => before.isNone || before == some '\n'
  | .lineEnd => after.isNone || after == some '\n'
  | .returnLineStart =>
      before.isNone || before == some '\n' || (before == some '\x0d' && after != some '\n')
  | .returnLineEnd =>
      after.isNone || after == some '\x0d' || (after == some '\n' && before != some '\x0d')
  | .word e ascii => e.holds (before.any (isWord ascii)) (after.any (isWord ascii))

end Regex

end ValueSchema

import ValueSchema.Regex.Modes
import ValueSchema.Text.Hex
import ValueSchema.Unicode.Query

/-!
# Escapes

An escape is what follows a backslash: a character, a class of characters or an anchor.
`Regex.readEscape` reads one.  Escapes that need the characters of all scripts are
refused in modes that know only ASCII.
-/

namespace ValueSchema

namespace Regex

/-- What an escape stands for. -/
inductive Escape where
  /-- A character. -/
  | literal (c : Char)
  /-- A set of characters. -/
  | set (s : CodeSet)
  /-- A condition on the position. -/
  | anchor (a : Anchor)

/-! ## Code points -/

/-- The character with a code point. -/
def charOf? (n : Nat) : Option Char := if n.isValidChar then some (Char.ofNat n) else none

/-- Whether a character is a hexadecimal digit. -/
def isHexDigit (c : Char) : Bool := (Text.hexDigit? c).isSome

/-- A number of hexadecimal digits. -/
def takeHex? (m : Modes) : Nat → List Char → Option (List Char × List Char)
  | 0, cs => some ([], cs)
  | n + 1, cs =>
      match cs with
      | c :: cs =>
          if isHexDigit c then
            (takeHex? m n (if n = 0 then cs else m.skip cs)).map fun p => (c :: p.1, p.2)
          else none
      | [] => none
termination_by structural n => n

/-- A code point, as a number of digits or as any number of them in braces.  Two digits
denote a byte, which modes that know only ASCII have up to 127. -/
def readHex (m : Modes) (digits : Nat) (cs : List Char) : Option (Escape × List Char) := do
  match m.skip cs with
  | '{' :: cs =>
      match m.run isHexDigit (m.skip cs) with
      | (number, '}' :: rest) =>
          let c ← charOf? (← Text.hexNumber? number)
          return (.literal c, rest)
      | _ => none
  | cs =>
      let (number, rest) ← takeHex? m digits cs
      let c ← charOf? (← Text.hexNumber? number)
      if digits = 2 ∧ !m.unicode ∧ 0x80 ≤ c.toNat then none else return (.literal c, rest)

/-! ## Classes -/

/-- White space of ASCII. -/
def asciiSpace : CodeSet := .interval 0x09 0x0d ∪ .single ' '

/-- The set of a class of one letter. -/
def letterClass? (m : Modes) : Char → Option CodeSet
  | 'd' => some (if m.unicode then Unicode.decimalNumber else .asciiDigit)
  | 'w' => some (if m.unicode then Unicode.wordCharacter else asciiWord)
  | 's' => some (if m.unicode then Unicode.whiteSpace else asciiSpace)
  | _ => none

/-- A text before and after the first place of a sign in it. -/
def splitAt? (sign : List Char) : List Char → Option (List Char × List Char)
  | [] => none
  | c :: cs =>
      if sign.isPrefixOf (c :: cs) then some ([], (c :: cs).drop sign.length)
      else (splitAt? sign cs).map fun p => (c :: p.1, p.2)
termination_by structural cs => cs

/-- The set that the text in the braces of a property denotes: a name, or a property and
its value. -/
def propertySet? (text : List Char) : Option CodeSet :=
  match (splitAt? ['!', '='] text).or ((splitAt? [':'] text).or (splitAt? ['='] text)) with
  | some (property, value) => Unicode.ofValue? (String.ofList property) (String.ofList value)
  | none => Unicode.ofName? (String.ofList text)

/-- The name of a property, in braces or as one letter, and the rest. -/
def readProperty (m : Modes) (cs : List Char) : Option (List Char × List Char) :=
  match m.skip cs with
  | [] => none
  | '{' :: cs =>
      match m.run (· ≠ '}') (m.skip cs) with
      | (text, _ :: rest) => some (text, rest)
      | (_, []) => none
  | c :: cs => if c = '\\' then none else some ([c], cs)

/-- The set of a property with the case variants that the modes add, or the characters
outside of it. -/
def readPropertySet (m : Modes) (negated : Bool) (cs : List Char) :
    Option (Escape × List Char) := do
  let (text, rest) ← readProperty m cs
  let s ← propertySet? text
  if m.unicode then
    let s ← m.signed? negated (m.fold s)
    return (.set s, rest)
  else none

/-! ## Word boundaries -/

/-- The condition that a name in braces after `\b` denotes. -/
def namedEdge? : String → Option WordEdge
  | "start" => some .start
  | "end" => some .finish
  | "start-half" => some .noneBefore
  | "end-half" => some .noneAfter
  | _ => none

/-- Whether a character may be part of the name of a word boundary. -/
def isEdgeChar (c : Char) : Bool := c.isAlpha || c = '-'

/-- What follows `\b`.  A brace opens the name of a condition if a letter or a dash comes
next, and the bounds of a repetition otherwise. -/
def readEdge (m : Modes) (cs : List Char) : Option (Escape × List Char) :=
  let plain := some (Escape.anchor (.word .edge !m.unicode), cs)
  match cs with
  | '{' :: inner =>
      match m.skip inner with
      | [] => none
      | c :: cs =>
          if isEdgeChar c then
            match m.run isEdgeChar (c :: cs) with
            | (name, '}' :: rest) =>
                (namedEdge? (String.ofList name)).map fun e =>
                  (.anchor (.word e !m.unicode), rest)
            | _ => none
          else plain
  | _ => plain

/-! ## All escapes -/

/-- The character that a letter stands for. -/
def controlChar? : Char → Option Char
  | 'a' => some '\x07'
  | 'f' => some '\x0c'
  | 't' => some '\t'
  | 'n' => some '\n'
  | 'r' => some '\x0d'
  | 'v' => some '\x0b'
  | _ => none

/-- The condition that one sign stands for. -/
def anchorOf? (m : Modes) : Char → Option Anchor
  | 'A' => some .textStart
  | 'z' => some .textEnd
  | 'B' => some (.word .noEdge !m.unicode)
  | '<' => some (.word .start !m.unicode)
  | '>' => some (.word .finish !m.unicode)
  | _ => none

/-- Whether a character stands for itself after a backslash: every ASCII character but
letters, digits and angle brackets. -/
def isEscapable (c : Char) : Bool := c.toNat < 0x80 && !c.isAlphanum && c ≠ '<' && c ≠ '>'

/-- The escape after a backslash. -/
def readEscape (m : Modes) : List Char → Option (Escape × List Char)
  | [] => none
  | 'x' :: cs => readHex m 2 cs
  | 'u' :: cs => readHex m 4 cs
  | 'U' :: cs => readHex m 8 cs
  | 'p' :: cs => readPropertySet m false cs
  | 'P' :: cs => readPropertySet m true cs
  | 'b' :: cs => readEdge m cs
  | c :: cs =>
      if isEscapable c then some (.literal c, cs)
      else
        match letterClass? m c, letterClass? m c.toLower, controlChar? c, anchorOf? m c with
        | some s, _, _, _ => some (.set s, cs)
        | none, some s, _, _ => (m.compl? s).map (.set ·, cs)
        | none, none, some c, _ => some (.literal c, cs)
        | none, none, none, some a => some (.anchor a, cs)
        | none, none, none, none => none

end Regex

end ValueSchema

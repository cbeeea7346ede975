import ValueSchema.Unicode.Category
import ValueSchema.Unicode.Property

/-!
# Derived properties

Properties of characters that the Unicode standard defines by categories and listed
properties: letters and words, identifiers, mathematics, and what forms one character
for a reader.  `Unicode.derivedProperties` lists them with their names.
-/

namespace ValueSchema

namespace Unicode

/-! ## Letters and words -/

/-- Lower case. -/
def lowercase : CodeSet := lowercaseLetter ∪ otherLowercase

/-- Upper case. -/
def uppercase : CodeSet := uppercaseLetter ∪ otherUppercase

/-- Alphabetic characters. -/
def alphabetic : CodeSet := .unionAll [letter, letterNumber, lowercase, uppercase, otherAlphabetic]

/-- The characters that words are made of: alphabetic characters, marks, decimal digits,
connecting punctuation and the controls of joining. -/
def wordCharacter : CodeSet :=
  .unionAll [alphabetic, mark, decimalNumber, connectorPunctuation, joinControl]

/-- Whether a character may be part of a word. -/
def isWordChar (c : Char) : Bool := wordCharacter.contains c.toNat

/-- Whether a character is alphabetic. -/
def isAlphabetic (c : Char) : Bool := alphabetic.contains c.toNat

/-- Whether a character is alphabetic or a number. -/
def isAlphanumeric (c : Char) : Bool := alphabetic.contains c.toNat || number.contains c.toNat

/-! ## Identifiers -/

/-- The characters that patterns use for themselves. -/
def patternCharacter : CodeSet := patternSyntax ∪ patternWhiteSpace

/-- The first characters of identifiers. -/
def idStart : CodeSet := .unionAll [letter, letterNumber, otherIdStart] \ patternCharacter

/-- The further characters of identifiers. -/
def idContinue : CodeSet :=
  .unionAll [idStart, nonspacingMark, spacingMark, decimalNumber, connectorPunctuation,
    otherIdContinue] \ patternCharacter

/-- The first characters of identifiers that normalization keeps. -/
def xidStart : CodeSet :=
  idStart \ .ofTable "37a e33 eb3 309b-309c fc5e-fc63 fdfa-fdfb fe70~fe7e ff9e-ff9f"

/-- The further characters of identifiers that normalization keeps. -/
def xidContinue : CodeSet := idContinue \ .ofTable "37a 309b-309c fc5e-fc63 fdfa-fdfb fe70~fe7e"

/-! ## Other -/

/-- Characters of mathematics. -/
def math : CodeSet := mathSymbol ∪ otherMath

/-- Characters that extend the one before. -/
def graphemeExtend : CodeSet := .unionAll [enclosingMark, nonspacingMark, otherGraphemeExtend]

/-- Characters that others extend. -/
def graphemeBase : CodeSet :=
  (CodeSet.unionAll [control, format, privateUse, unassigned, lineSeparator, paragraphSeparator,
    graphemeExtend]).compl

/-- Characters that show nothing where they are not supported. -/
def defaultIgnorable : CodeSet :=
  .unionAll [otherDefaultIgnorableCodePoint, format, variationSelector] \
    .unionAll [whiteSpace, prependedConcatenationMark, .ofTable "fff9-fffb 13430-1343f"]

/-! ## Names -/

/-- The derived properties that do not concern case. -/
def derivedProperties : List NamedSet :=
  [
    ⟨["lower", "lowercase"], lowercase⟩, ⟨["upper", "uppercase"], uppercase⟩,
    ⟨["alpha", "alphabetic"], alphabetic⟩, ⟨["ids", "idstart"], idStart⟩,
    ⟨["idc", "idcontinue"], idContinue⟩, ⟨["xids", "xidstart"], xidStart⟩,
    ⟨["xidc", "xidcontinue"], xidContinue⟩, ⟨["math"], math⟩,
    ⟨["grext", "graphemeextend"], graphemeExtend⟩, ⟨["grbase", "graphemebase"], graphemeBase⟩,
    ⟨["di", "defaultignorablecodepoint"], defaultIgnorable⟩
  ]

end Unicode

end ValueSchema
